import Mathlib.Data.List.Forall2

/-!
# Steps that can fail

A chain of steps has a result exactly when each step has one, and an error exactly when one step has
it. This opens the forms and checks of the engine one step at a time.
-/

namespace MachineCode

theorem bind_eq_ok {ε α β : Type} {x : Except ε α} {f : α → Except ε β} {b : β} :
    x >>= f = .ok b ↔ ∃ a, x = .ok a ∧ f a = .ok b := by
  cases x with
  | error e => simp [bind, Except.bind]
  | ok a => simp [bind, Except.bind]

theorem bind_eq_error {ε α β : Type} {x : Except ε α} {f : α → Except ε β} {e : ε} :
    x >>= f = .error e ↔ x = .error e ∨ ∃ a, x = .ok a ∧ f a = .error e := by
  cases x with
  | error e => simp [bind, Except.bind]
  | ok a => simp [bind, Except.bind]

theorem exists_bind_eq_ok {ε α β : Type} {x : Except ε α} {f : α → Except ε β} :
    (∃ b, x >>= f = .ok b) ↔ ∃ a, x = .ok a ∧ ∃ b, f a = .ok b := by
  cases x with
  | error e => simp [bind, Except.bind]
  | ok a => simp [bind, Except.bind]

theorem mapM_cons_eq_ok_iff {ε α β : Type} {f : α → Except ε β} {x : α} {rest : List α}
    {results : List β} :
    (x :: rest).mapM f = .ok results
      ↔ ∃ result more, f x = .ok result ∧ rest.mapM f = .ok more ∧ results = result :: more := by
  rw [List.mapM_cons]
  constructor
  · intro h
    obtain ⟨result, hx, h⟩ := bind_eq_ok.mp h
    obtain ⟨more, hrest, h⟩ := bind_eq_ok.mp h
    cases h
    exact ⟨result, more, hx, hrest, rfl⟩
  · rintro ⟨result, more, hx, hrest, rfl⟩
    exact bind_eq_ok.mpr ⟨result, hx, bind_eq_ok.mpr ⟨more, hrest, rfl⟩⟩

theorem mapM_eq_ok_pair_iff {ε α β : Type} {f : α → Except ε β} {list : List α} {first second : β} :
    list.mapM f = .ok [first, second]
      ↔ ∃ x y, list = [x, y] ∧ f x = .ok first ∧ f y = .ok second := by
  constructor
  · intro h
    rcases list with _ | ⟨x, _ | ⟨y, _ | ⟨z, rest⟩⟩⟩
    · cases h
    · obtain ⟨_, _, -, hnil, hlist⟩ := mapM_cons_eq_ok_iff.mp h
      cases hnil
      cases hlist
    · obtain ⟨_, _, hx, hrest, hlist⟩ := mapM_cons_eq_ok_iff.mp h
      obtain ⟨_, _, hy, hnil, rfl⟩ := mapM_cons_eq_ok_iff.mp hrest
      cases hlist
      exact ⟨x, y, rfl, hx, hy⟩
    · obtain ⟨_, _, -, hrest, hlist⟩ := mapM_cons_eq_ok_iff.mp h
      obtain ⟨_, _, -, hmore, rfl⟩ := mapM_cons_eq_ok_iff.mp hrest
      obtain ⟨_, _, -, -, rfl⟩ := mapM_cons_eq_ok_iff.mp hmore
      cases hlist
  · rintro ⟨x, y, rfl, hx, hy⟩
    rw [List.mapM_cons, List.mapM_cons, List.mapM_nil, hx, hy]
    rfl

theorem exists_mem_of_mapM_eq_ok {ε α β : Type} {f : α → Except ε β} {list : List α}
    {results : List β} (h : list.mapM f = .ok results) :
    (∀ x ∈ list, ∃ result ∈ results, f x = .ok result)
      ∧ ∀ result ∈ results, ∃ x ∈ list, f x = .ok result := by
  induction list generalizing results with
  | nil =>
    cases h
    exact ⟨List.forall_mem_nil _, List.forall_mem_nil _⟩
  | cons x rest ih =>
    obtain ⟨result, more, hx, hrest, rfl⟩ := mapM_cons_eq_ok_iff.mp h
    obtain ⟨hleft, hright⟩ := ih hrest
    refine ⟨fun y hy => ?_, fun y hy => ?_⟩
    · rcases List.mem_cons.mp hy with rfl | hy
      · exact ⟨result, List.mem_cons_self, hx⟩
      · obtain ⟨found, hfound, hread⟩ := hleft y hy
        exact ⟨found, List.mem_cons_of_mem result hfound, hread⟩
    · rcases List.mem_cons.mp hy with rfl | hy
      · exact ⟨x, List.mem_cons_self, hx⟩
      · obtain ⟨found, hfound, hread⟩ := hright y hy
        exact ⟨found, List.mem_cons_of_mem x hfound, hread⟩

/-- The error of a list is that of its first member that has one. -/
theorem mapM_eq_error_iff {ε α β : Type} {f : α → Except ε β} {list : List α} {e : ε} :
    list.mapM f = .error e
      ↔ ∃ before x after, list = before ++ x :: after ∧ (∀ y ∈ before, ∃ result, f y = .ok result)
        ∧ f x = .error e := by
  induction list with
  | nil =>
    constructor
    · intro h
      cases h
    · rintro ⟨before, x, after, hlist, -⟩
      exact absurd hlist.symm (by simp)
  | cons x rest ih =>
    rw [List.mapM_cons]
    constructor
    · intro h
      rcases bind_eq_error.mp h with hx | ⟨result, hx, h⟩
      · exact ⟨[], x, rest, rfl, List.forall_mem_nil _, hx⟩
      rcases bind_eq_error.mp h with hrest | ⟨more, -, h⟩
      · obtain ⟨before, y, after, rfl, hbefore, hy⟩ := ih.mp hrest
        exact ⟨x :: before, y, after, rfl, List.forall_mem_cons.mpr ⟨⟨result, hx⟩, hbefore⟩, hy⟩
      · cases h
    · rintro ⟨before, y, after, hlist, hbefore, hy⟩
      apply bind_eq_error.mpr
      cases before with
      | nil =>
        obtain ⟨rfl, -⟩ := List.cons.inj hlist
        exact .inl hy
      | cons first before =>
        obtain ⟨rfl, rfl⟩ := List.cons.inj hlist
        obtain ⟨⟨result, hx⟩, hbefore⟩ := List.forall_mem_cons.mp hbefore
        have hrest := ih.mpr ⟨before, y, after, rfl, hbefore, hy⟩
        exact .inr ⟨result, hx, bind_eq_error.mpr (.inl hrest)⟩

theorem exists_of_mapM_eq_error {ε α β : Type} {f : α → Except ε β} {list : List α} {e : ε}
    (h : list.mapM f = .error e) : ∃ x ∈ list, f x = .error e := by
  obtain ⟨before, x, after, rfl, -, hx⟩ := mapM_eq_error_iff.mp h
  exact ⟨x, by simp, hx⟩

/-- A list of steps has its results one by one, in order. -/
theorem mapM_eq_some_iff_forall₂ {α β : Type} {f : α → Option β} {list : List α}
    {results : List β} :
    list.mapM f = some results ↔ List.Forall₂ (fun x result => f x = some result) list results := by
  induction list generalizing results with
  | nil => cases results <;> simp
  | cons x rest ih =>
    rw [List.mapM_cons]
    constructor
    · intro h
      obtain ⟨result, hx, h⟩ := Option.bind_eq_some_iff.mp h
      obtain ⟨more, hrest, h⟩ := Option.bind_eq_some_iff.mp h
      cases h
      exact .cons hx (ih.mp hrest)
    · intro h
      cases h with
      | cons hx hrest => simp [hx, ih.mpr hrest]

theorem exists_mem_of_mapM_eq_some {α β : Type} {f : α → Option β} {list : List α}
    {results : List β} (h : list.mapM f = some results) :
    results.length = list.length
      ∧ (∀ x ∈ list, ∃ result ∈ results, f x = some result)
      ∧ ∀ result ∈ results, ∃ x ∈ list, f x = some result := by
  induction list generalizing results with
  | nil =>
    cases h
    exact ⟨rfl, List.forall_mem_nil _, List.forall_mem_nil _⟩
  | cons x rest ih =>
    rw [List.mapM_cons] at h
    obtain ⟨result, hx, h⟩ := Option.bind_eq_some_iff.mp h
    obtain ⟨more, hrest, h⟩ := Option.bind_eq_some_iff.mp h
    cases h
    obtain ⟨hlength, hleft, hright⟩ := ih hrest
    refine ⟨congrArg (· + 1) hlength, fun y hy => ?_, fun y hy => ?_⟩
    · rcases List.mem_cons.mp hy with rfl | hy
      · exact ⟨result, List.mem_cons_self, hx⟩
      · obtain ⟨found, hfound, hread⟩ := hleft y hy
        exact ⟨found, List.mem_cons_of_mem result hfound, hread⟩
    · rcases List.mem_cons.mp hy with rfl | hy
      · exact ⟨x, List.mem_cons_self, hx⟩
      · obtain ⟨found, hfound, hread⟩ := hright y hy
        exact ⟨found, List.mem_cons_of_mem x hfound, hread⟩

end MachineCode
