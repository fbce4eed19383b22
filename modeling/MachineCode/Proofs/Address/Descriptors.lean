import MachineCode.Proofs.Address.Rendering

/-!
# Descriptors in their text

An address that was put together from its fields, and not read, may carry a scale that its text does
not show, or lack the one that its text shows. Its text reads back as the address with the scale of
the text. So it reads back as the address itself exactly when all of the fields show in it.
-/

namespace MachineCode.AddressExpr

/-- The address with the scale that its text shows: none without an index, and at least 1 for an
index that stands alone. -/
def normal (expr : AddressExpr) : AddressExpr :=
  if expr.index.isEmpty then
    { expr with scale := 0 }
  else if expr.base.isEmpty && expr.scale = 0 then
    { expr with scale := 1 }
  else
    expr

section Normal

variable {expr : AddressExpr}

theorem isName_of_ne_empty {name : String} (hne : name ≠ "")
    (hname : ∀ c ∈ name.toList, isOperator c = false) : IsName name.toList := by
  refine ⟨fun hnil => hne (String.toList_eq_nil_iff.mp hnil), ?_, ?_, ?_⟩
  all_goals
    intro hmem
    exact absurd (hname _ hmem) (by decide)

theorem exists_isScale {scale : UInt8} (hscale : scale ∈ [0, 1, 2, 4, 8]) (hzero : scale ≠ 0) :
    ∃ text, IsScale text scale := by
  simp only [List.mem_cons, List.not_mem_nil, or_false] at hscale
  rcases hscale with rfl | rfl | rfl | rfl | rfl
  · exact absurd rfl hzero
  · exact ⟨_, .one⟩
  · exact ⟨_, .two⟩
  · exact ⟨_, .four⟩
  · exact ⟨_, .eight⟩

theorem render_normal (expr : AddressExpr) : expr.normal.render = expr.render := by
  rw [normal]
  split
  · rename_i hindex
    simp only [render, registersText, hindex, if_true]
  · rename_i hindex
    split
    · rename_i hbase
      rw [Bool.and_eq_true, decide_eq_true_eq] at hbase
      simp [render, registersText, hindex, hbase.1, hbase.2]
    · rfl

/-- Names without operators and a scale that can be written have a register part, which stands for
the address with the scale of the text. -/
theorem exists_isTerm_normal (hbase : ∀ c ∈ expr.base.toList, isOperator c = false)
    (hindex : ∀ c ∈ expr.index.toList, isOperator c = false)
    (hnamed : ¬ (expr.base = "" ∧ expr.index = "")) (hscale : expr.scale ∈ [0, 1, 2, 4, 8]) :
    ∃ term registers, IsTerm term registers ∧ registers.displaced expr.disp = expr.normal := by
  obtain ⟨base, index, scale, disp⟩ := expr
  rw [normal]
  by_cases hnoIndex : index = ""
  · have hbaseName := isName_of_ne_empty (fun hnoBase => hnamed ⟨hnoBase, hnoIndex⟩) hbase
    refine ⟨_, _, .base hbaseName, ?_⟩
    simp [hnoIndex, displaced, ofBase]
  · have hindexName := isName_of_ne_empty hnoIndex hindex
    by_cases hnoBase : base = ""
    · by_cases hzero : scale = 0
      · refine ⟨_, _, .index hindexName .one, ?_⟩
        simp [hnoIndex, hnoBase, hzero, displaced, ofIndex]
      · obtain ⟨text, hscale⟩ := exists_isScale hscale hzero
        refine ⟨_, _, .index hindexName hscale, ?_⟩
        simp [hnoIndex, hnoBase, hzero, displaced, ofIndex]
    · have hbaseName := isName_of_ne_empty hnoBase hbase
      by_cases hzero : scale = 0
      · refine ⟨_, _, .baseIndex hbaseName hindexName, ?_⟩
        simp [hnoIndex, hnoBase, hzero, displaced, ofBaseIndex]
      · obtain ⟨text, hscale⟩ := exists_isScale hscale hzero
        refine ⟨_, _, .baseIndexScale hbaseName hindexName hscale, ?_⟩
        simp [hnoIndex, hnoBase, displaced, ofBaseIndex]

theorem normal_base (expr : AddressExpr) : expr.normal.base = expr.base := by
  rw [normal]
  split
  · rfl
  · split <;> rfl

theorem normal_index (expr : AddressExpr) : expr.normal.index = expr.index := by
  rw [normal]
  split
  · rfl
  · split <;> rfl

/-- Unless a scale is lost with the index, the scales differ as 0 and 1 at most. -/
theorem normal_scale (hused : ¬ (expr.index = "" ∧ 1 < expr.scale)) :
    expr.normal.scale = expr.scale ∨ expr.normal.scale = 0 ∧ expr.scale = 1
      ∨ expr.normal.scale = 1 ∧ expr.scale = 0 := by
  rw [normal]
  split
  · rename_i hindex
    have hle : ¬ 1 < expr.scale := fun hlt => hused ⟨String.isEmpty_iff.mp hindex, hlt⟩
    have hcases : expr.scale = 0 ∨ expr.scale = 1 := by
      simp only [UInt8.lt_iff_toNat_lt, ← UInt8.toNat_inj] at hle ⊢
      simp at hle ⊢
      omega
    rcases hcases with hzero | hone
    · exact .inl hzero.symm
    · exact .inr (.inl ⟨rfl, hone⟩)
  · split
    · rename_i hbase
      rw [Bool.and_eq_true, decide_eq_true_eq] at hbase
      exact .inr (.inr ⟨rfl, hbase.2⟩)
    · exact .inl rfl

theorem IsTerm.parse_render {term : List Char} {registers : AddressExpr}
    (h : IsTerm term registers) {disp : Int32}
    (hindex : ¬ (registers.displaced disp).IndexReadsAsDisp) :
    parse (registers.displaced disp).render = .ok (registers.displaced disp) := by
  have hread := (h.isReading_render disp hindex).parseChars_eq
  rwa [Int32.ofInt_toInt] at hread

/-- The text of a plain address reads back as the address with the scale of the text. -/
theorem IsPlain.parse_render (h : expr.IsPlain) : parse expr.render = .ok expr.normal := by
  obtain ⟨term, registers, hterm, hnormal⟩ :=
    exists_isTerm_normal h.base h.index h.named h.scale
  have hindex : ¬ expr.normal.IndexReadsAsDisp := by
    rintro ⟨-, -, hnumeric⟩
    rw [normal_index] at hnumeric
    exact h.notNumeric hnumeric
  rw [← hnormal] at hindex
  have hread := hterm.parse_render hindex
  rwa [hnormal, render_normal] at hread

end Normal

/-! ### Descriptors that their text gives back -/

section Recoverable

variable {expr registers : AddressExpr} {term : List Char} {disp : Int32}

theorem IsScale.mem {text : List Char} {scale : UInt8} (h : IsScale text scale) :
    scale ∈ [1, 2, 4, 8] := by
  cases h <;> decide

theorem IsTerm.isRecoverable (h : IsTerm term registers)
    (hindex : ¬ (registers.displaced disp).IndexReadsAsDisp) :
    (registers.displaced disp).IsRecoverable := by
  have hnotNumeric : registers.base ≠ "" → registers.index ≠ "" → disp = 0 →
      ¬ LooksNumeric registers.index :=
    fun hbase _ hdisp hnumeric => hindex ⟨hbase, hdisp, hnumeric⟩
  cases h with
  | base hbase =>
    refine ⟨?_, ?_, ?_, ?_, ?_, ?_, hnotNumeric⟩
    all_goals simp [displaced, ofBase, hbase.2, hbase.ofList_ne]
  | index hname hscale =>
    refine ⟨?_, ?_, ?_, ?_, fun _ _ => hscale.mem, ?_, hnotNumeric⟩
    all_goals simp [displaced, ofIndex, hname.2, hname.ofList_ne]
  | baseIndex hbase hname =>
    refine ⟨?_, ?_, ?_, ?_, ?_, ?_, hnotNumeric⟩
    all_goals
      simp [displaced, ofBaseIndex, hbase.2, hbase.ofList_ne, hname.2, hname.ofList_ne]
  | baseIndexScale hbase hname hscale =>
    refine ⟨?_, ?_, ?_, ?_, ?_, fun _ _ => List.mem_cons_of_mem 0 hscale.mem, hnotNumeric⟩
    all_goals
      simp [displaced, ofBaseIndex, hbase.2, hbase.ofList_ne, hname.2, hname.ofList_ne]

theorem not_isOperator_of_mem {name : List Char} (h : '+' ∉ name ∧ '-' ∉ name ∧ '*' ∉ name) :
    ∀ c ∈ name, isOperator c = false := by
  simpa using any_isOperator_eq_false_iff.mpr h

theorem IsRecoverable.scale_mem (h : expr.IsRecoverable) : expr.scale ∈ [0, 1, 2, 4, 8] := by
  by_cases hnoIndex : expr.index = ""
  · simp [h.scale_noIndex hnoIndex]
  · by_cases hnoBase : expr.base = ""
    · exact List.mem_cons_of_mem 0 (h.scale_index hnoBase hnoIndex)
    · exact h.scale_baseIndex hnoBase hnoIndex

theorem IsRecoverable.normal_eq (h : expr.IsRecoverable) : expr.normal = expr := by
  rw [normal]
  split
  · rename_i hnoIndex
    rw [← h.scale_noIndex (String.isEmpty_iff.mp hnoIndex)]
  · rename_i hindex
    split
    · rename_i halone
      rw [Bool.and_eq_true, decide_eq_true_eq] at halone
      have hscale := h.scale_index (String.isEmpty_iff.mp halone.1)
        (fun hnoIndex => hindex (String.isEmpty_iff.mpr hnoIndex))
      rw [halone.2] at hscale
      exact absurd hscale (by decide)
    · rfl

theorem IsRecoverable.not_indexReadsAsDisp (h : expr.IsRecoverable) : ¬ expr.IndexReadsAsDisp := by
  rintro ⟨hbase, hdisp, hnumeric⟩
  refine h.notNumeric hbase ?_ hdisp hnumeric
  intro hnoIndex
  rw [hnoIndex] at hnumeric
  exact not_looksNumeric_empty hnumeric

theorem IsRecoverable.parse_render (h : expr.IsRecoverable) : parse expr.render = .ok expr := by
  obtain ⟨term, registers, hterm, hnormal⟩ := exists_isTerm_normal
    (not_isOperator_of_mem h.base) (not_isOperator_of_mem h.index) h.named h.scale_mem
  rw [h.normal_eq] at hnormal
  rw [← hnormal]
  apply hterm.parse_render
  rw [hnormal]
  exact h.not_indexReadsAsDisp

/-- An address that its text gives back has an index that is not taken for a displacement there. -/
theorem IsTerm.not_indexReadsAsDisp (h : IsTerm term registers)
    (hread : parse (registers.displaced disp).render = .ok (registers.displaced disp)) :
    ¬ (registers.displaced disp).IndexReadsAsDisp := by
  intro hindex
  have hlost := congrArg AddressExpr.index (h.eq_of_parse_render hindex hread)
  have hnumeric := hindex.2.2
  rw [hlost] at hnumeric
  exact not_looksNumeric_empty hnumeric

end Recoverable

/-- **Which descriptors their text gives back.** The text of an address reads back as the address
itself exactly when it is the empty address or shows all of its fields. -/
theorem parse_render_eq_ok_iff (expr : AddressExpr) :
    parse expr.render = .ok expr ↔ expr = {} ∨ expr.IsRecoverable := by
  constructor
  · intro hread
    rcases (parseChars_eq_ok_iff.mp hread).exists_isTerm with
      hempty | ⟨term, registers, hterm, hexpr⟩
    · exact .inl hempty
    · right
      rw [← hexpr] at hread ⊢
      exact hterm.isRecoverable (hterm.not_indexReadsAsDisp hread)
  · rintro (rfl | h)
    · rfl
    · exact h.parse_render

/-- Without a displacement behind it, the index `1` in `RAX+1` is read as the displacement. -/
example : parse (ofBaseIndex "RAX" "1" 0).render ≠ .ok (ofBaseIndex "RAX" "1" 0)
    ∧ parse ((ofBaseIndex "RAX" "1" 0).displaced (-0x80000000)).render
      = .ok ((ofBaseIndex "RAX" "1" 0).displaced (-0x80000000)) := by
  decide +kernel

end MachineCode.AddressExpr
