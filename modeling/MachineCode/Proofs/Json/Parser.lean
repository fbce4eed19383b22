import MachineCode.Json.Parser
import MachineCode.Json.Printer

/-!
# Values in their tokens

The tokens of a value read back as that value, whatever stands behind them. The induction is on the
fuel, over values, items and members at once, with twice the number of tokens as the measure:
reading a token takes a step, and so does going on to the next item.
-/

namespace MachineCode.Json

variable {fuel : Nat}

theorem itemTokens_cons (item : Json) {items : List Json} (hne : items ≠ []) :
    itemTokens (item :: items) = item.tokens ++ .comma :: itemTokens items := by
  rw [itemTokens]
  exact hne

theorem memberTokens_cons (key : Option String) (value : Json)
    {members : List (Option String × Json)} (hne : members ≠ []) :
    memberTokens ((key, value) :: members)
      = .string key :: .colon :: (value.tokens ++ .comma :: memberTokens members) := by
  rw [memberTokens, List.cons_append, List.cons_append]
  exact hne

theorem length_tokens_pos (value : Json) : 0 < value.tokens.length := by
  cases value <;> simp [tokens]

theorem length_itemTokens_pos {items : List Json} (hne : items ≠ []) :
    0 < (itemTokens items).length := by
  obtain ⟨item, items, rfl⟩ := List.exists_cons_of_ne_nil hne
  have hpos := item.length_tokens_pos
  by_cases hlast : items = []
  · subst hlast
    exact hpos
  · rw [itemTokens_cons item hlast, List.length_append]
    omega

theorem length_memberTokens_pos {members : List (Option String × Json)} (hne : members ≠ []) :
    0 < (memberTokens members).length := by
  obtain ⟨⟨key, value⟩, members, rfl⟩ := List.exists_cons_of_ne_nil hne
  by_cases hlast : members = []
  · subst hlast
    exact Nat.succ_pos _
  · rw [memberTokens_cons key value hlast]
    exact Nat.succ_pos _

/-! ### One step of the reader -/

section Steps

variable {tokens behind rest : List Token} {value : Json}

theorem readValue_scalar {token : Token} (h : token.scalar? = some value) (rest : List Token) :
    readValue (fuel + 1) (token :: rest) = some (value, rest) := by
  cases token <;> cases h <;> rfl

/-- No item starts like the end of an array. -/
theorem readItems_closeBracket (fuel : Nat) (rest : List Token) :
    readItems fuel (.closeBracket :: rest) = none := by
  cases fuel with
  | zero => rfl
  | succ fuel => cases fuel <;> rfl

theorem readMembers_closeBrace (fuel : Nat) (rest : List Token) :
    readMembers fuel (.closeBrace :: rest) = none := by
  cases fuel <;> rfl

theorem readValue_items {items : List Json} (h : readItems fuel tokens = some (items, rest)) :
    readValue (fuel + 1) (.openBracket :: tokens) = some (.array items, rest) := by
  rw [readValue.eq_def]
  rcases tokens with _ | ⟨first, tokens⟩
  · simp only [h]
    rfl
  · cases first with
    | closeBracket =>
      rw [readItems_closeBracket] at h
      cases h
    | _ =>
      simp only [h]
      rfl

theorem readValue_members {members : List (Option String × Json)}
    (h : readMembers fuel tokens = some (members, rest)) :
    readValue (fuel + 1) (.openBrace :: tokens) = some (.object members, rest) := by
  rw [readValue.eq_def]
  rcases tokens with _ | ⟨first, tokens⟩
  · simp only [h]
    rfl
  · cases first with
    | closeBrace =>
      rw [readMembers_closeBrace] at h
      cases h
    | _ =>
      simp only [h]
      rfl

theorem readItems_last (h : readValue fuel tokens = some (value, .closeBracket :: rest)) :
    readItems (fuel + 1) tokens = some ([value], rest) := by
  rw [readItems, h]
  rfl

theorem readItems_more {items : List Json}
    (h : readValue fuel tokens = some (value, .comma :: behind))
    (hbehind : readItems fuel behind = some (items, rest)) :
    readItems (fuel + 1) tokens = some (value :: items, rest) := by
  rw [readItems, h]
  simp only [hbehind, Option.bind_eq_bind, Option.bind_some]
  rfl

variable {key : Option String}

theorem readMembers_last (h : readValue fuel tokens = some (value, .closeBrace :: rest)) :
    readMembers (fuel + 1) (.string key :: .colon :: tokens) = some ([(key, value)], rest) := by
  rw [readMembers]
  simp only [h, Option.bind_eq_bind, Option.bind_some]
  rfl

theorem readMembers_more {members : List (Option String × Json)}
    (h : readValue fuel tokens = some (value, .comma :: behind))
    (hbehind : readMembers fuel behind = some (members, rest)) :
    readMembers (fuel + 1) (.string key :: .colon :: tokens)
      = some ((key, value) :: members, rest) := by
  rw [readMembers]
  simp only [h, hbehind, Option.bind_eq_bind, Option.bind_some]
  rfl

end Steps

/-! ### Whole values -/

/-- With this much fuel all values, items and members read back whose tokens are few enough. -/
structure ReadsBack (fuel : Nat) : Prop where
  value (value : Json) (rest : List Token) (hfuel : 2 * value.tokens.length ≤ fuel + 1) :
    readValue fuel (value.tokens ++ rest) = some (value, rest)
  items (items : List Json) (rest : List Token) (hne : items ≠ [])
      (hfuel : 2 * (itemTokens items).length ≤ fuel) :
    readItems fuel (itemTokens items ++ .closeBracket :: rest) = some (items, rest)
  members (members : List (Option String × Json)) (rest : List Token) (hne : members ≠ [])
      (hfuel : 2 * (memberTokens members).length ≤ fuel) :
    readMembers fuel (memberTokens members ++ .closeBrace :: rest) = some (members, rest)

theorem ReadsBack.succ_value (h : ReadsBack fuel) (value : Json) (rest : List Token)
    (hfuel : 2 * value.tokens.length ≤ fuel + 2) :
    readValue (fuel + 1) (value.tokens ++ rest) = some (value, rest) := by
  cases value with
  | array items =>
    by_cases hne : items = []
    · subst hne
      rfl
    · rw [tokens, List.cons_append, List.cons_append, List.append_assoc]
      simp only [tokens, List.length_cons, List.length_append, List.length_nil] at hfuel
      exact readValue_items (h.items items rest hne (by omega))
  | object members =>
    by_cases hne : members = []
    · subst hne
      rfl
    · rw [tokens, List.cons_append, List.cons_append, List.append_assoc]
      simp only [tokens, List.length_cons, List.length_append, List.length_nil] at hfuel
      exact readValue_members (h.members members rest hne (by omega))
  | _ =>
    rw [tokens]
    exact readValue_scalar rfl rest

theorem ReadsBack.succ_items (h : ReadsBack fuel) (items : List Json) (rest : List Token)
    (hne : items ≠ []) (hfuel : 2 * (itemTokens items).length ≤ fuel + 1) :
    readItems (fuel + 1) (itemTokens items ++ .closeBracket :: rest) = some (items, rest) := by
  obtain ⟨item, items, rfl⟩ := List.exists_cons_of_ne_nil hne
  by_cases hlast : items = []
  · subst hlast
    exact readItems_last (h.value item _ hfuel)
  · rw [itemTokens_cons item hlast, List.append_assoc, List.cons_append]
    rw [itemTokens_cons item hlast, List.length_append, List.length_cons] at hfuel
    exact readItems_more (h.value item _ (by omega)) (h.items items rest hlast (by omega))

theorem ReadsBack.succ_members (h : ReadsBack fuel) (members : List (Option String × Json))
    (rest : List Token) (hne : members ≠ [])
    (hfuel : 2 * (memberTokens members).length ≤ fuel + 1) :
    readMembers (fuel + 1) (memberTokens members ++ .closeBrace :: rest)
      = some (members, rest) := by
  obtain ⟨⟨key, value⟩, members, rfl⟩ := List.exists_cons_of_ne_nil hne
  by_cases hlast : members = []
  · subst hlast
    rw [memberTokens, List.length_cons, List.length_cons] at hfuel
    exact readMembers_last (h.value value _ (by omega))
  · rw [memberTokens_cons key value hlast, List.cons_append, List.cons_append, List.append_assoc,
      List.cons_append]
    rw [memberTokens_cons key value hlast, List.length_cons, List.length_cons, List.length_append,
      List.length_cons] at hfuel
    exact readMembers_more (h.value value _ (by omega)) (h.members members rest hlast (by omega))

theorem readsBack (fuel : Nat) : ReadsBack fuel := by
  induction fuel with
  | zero =>
    refine ⟨fun value _ hfuel => ?_, fun items _ hne hfuel => ?_, fun members _ hne hfuel => ?_⟩
    · have hpos := value.length_tokens_pos
      omega
    · have hpos := length_itemTokens_pos hne
      omega
    · have hpos := length_memberTokens_pos hne
      omega
  | succ fuel ih => exact ⟨ih.succ_value, ih.succ_items, ih.succ_members⟩

/-- The tokens of a value read back as the value. -/
theorem ofTokens?_tokens (value : Json) : ofTokens? value.tokens = some value := by
  have hread := (readsBack (2 * value.tokens.length)).value value [] (by omega)
  rw [List.append_nil] at hread
  rw [ofTokens?, hread]

end MachineCode.Json
