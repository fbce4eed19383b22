import MachineCode.Proofs.Session.Determinism
import MachineCode.Proofs.Session.Routes
import MachineCode.Proofs.X86.UnusedScales

/-!
# An address in one text, or in its parts

The text of an address does not show a scale without an index, and shows a scale for an index that
stands alone. The engine takes no scale for a scale of 1, so the second change is not seen in the
bytes. The first is seen where an unused scale is written.
-/

namespace MachineCode.X86

theorem readAddressRegister_find (name : String) :
    readAddressRegister (engine.registers.find name) = .ok (registerNamed? name) := by
  rw [readAddressRegister]
  cases hvalid : (engine.registers.find name).isValid with
  | false =>
    have hinvalid : engine.registers.find name = .invalid := by
      simpa [RegisterId.isValid] using hvalid
    rw [registerNamed?, hinvalid]
    rfl
  | true =>
    have hid : (engine.registers.find name).number ≠ 0 := by
      intro hzero
      have hinvalid : engine.registers.find name = .invalid := congrArg RegisterId.mk hzero
      rw [hinvalid] at hvalid
      cases hvalid
    obtain ⟨reg, hreg, -⟩ := getElem?_tableId (show Register.all.length < UInt16.size by decide) hid
    have hnamed : registerNamed? name = some reg := by
      rw [registerNamed?, Register.ofId?, if_neg hid]
      exact hreg
    rw [if_pos rfl, readRegister, ← registerNamed?, hnamed]
    rfl

theorem registerNamed?_empty : registerNamed? "" = none := by
  decide +kernel

theorem resolved_ofName (name : String) :
    (RegisterRef.ofName name).resolved engine = engine.registers.find name := by
  rw [RegisterRef.ofName]
  split
  · rename_i hempty
    rw [String.isEmpty_iff.mp hempty]
    decide +kernel
  · rfl

section Descriptors

variable {expr : AddressExpr}

/-- The address of a descriptor as the engine reads it. -/
theorem readAddress_ofExpr (policy : DispPolicy) (expr : AddressExpr) :
    ∃ address, readAddress ((Address.ofExpr expr).resolved engine policy) = .ok address
      ∧ address.base = registerNamed? expr.base ∧ address.index = registerNamed? expr.index
      ∧ address.scale = expr.scale := by
  have hbase := readAddressRegister_find expr.base
  have hindex := readAddressRegister_find expr.index
  rw [← resolved_ofName] at hbase hindex
  let memory := (Address.ofExpr expr).resolved engine policy
  let address : Memory :=
    { memory with base := registerNamed? expr.base, index := registerNamed? expr.index }
  exact ⟨address, bind_eq_ok.mpr ⟨_, hbase, bind_eq_ok.mpr ⟨_, hindex, rfl⟩⟩, rfl, rfl, rfl⟩

theorem resolved_normal (policy : DispPolicy) (expr : AddressExpr) :
    (Address.ofExpr expr).resolved engine policy
      = { (Address.ofExpr expr.normal).resolved engine policy with scale := expr.scale } := by
  rw [AddressExpr.normal]
  split
  · rfl
  · split <;> rfl

/-- Where no scale is lost, the scale of the text is written as that of the descriptor. -/
theorem scaleField?_normal (hused : ¬ (expr.index = "" ∧ 1 < expr.scale)) {address : Memory}
    (haddress : address.scale = expr.normal.scale) :
    { address with scale := expr.scale }.scaleField? = address.scaleField? := by
  rw [Memory.scaleField?, Memory.scaleField?, haddress]
  rcases AddressExpr.normal_scale hused with hsame | ⟨hnormal, hscale⟩ | ⟨hnormal, hscale⟩
  · rw [hsame]
  · rw [hnormal, hscale]
    rfl
  · rw [hnormal, hscale]
    rfl

theorem exists_scaleField {scale : UInt8} (h : scale ∈ [0, 1, 2, 4, 8]) (hlt : 1 < scale) :
    ∃ field : Fin 4, 1 <<< field.val = scale.toNat
      ∧ ∀ address : Memory, { address with scale }.scaleField? = some field := by
  simp only [List.mem_cons, List.not_mem_nil, or_false] at h
  rcases h with rfl | rfl | rfl | rfl | rfl
  · exact absurd hlt (by decide)
  · exact absurd hlt (by decide)
  · exact ⟨1, rfl, fun _ => rfl⟩
  · exact ⟨2, rfl, fun _ => rfl⟩
  · exact ⟨3, rfl, fun _ => rfl⟩

theorem hasValidScale (h : expr.IsPlain) : (Address.ofExpr expr).hasValidScale := by
  exact List.contains_iff_mem.mpr h.scale

theorem hasValidScale_normal (h : expr.IsPlain) : (Address.ofExpr expr.normal).hasValidScale := by
  rw [AddressExpr.normal]
  split
  · rfl
  split
  · rfl
  · exact List.contains_iff_mem.mpr h.scale

end Descriptors

/-- The two answers are one, unless an unused scale is written. -/
structure AgreeBesideScale (expr : AddressExpr)
    (written filled : Except EncodeFailure (List UInt8)) : Prop where
  same : ¬ (WritesUnusedScale expr ∧ ∃ bytes, written = .ok bytes) → filled = written
  differs : WritesUnusedScale expr → (∃ bytes, written = .ok bytes) →
    ∃ field : Fin 4, 1 <<< field.val = expr.scale.toNat ∧ DiffersInScale field written filled

theorem AgreeBesideScale.of_failure {expr : AddressExpr} {failure : EncodeFailure}
    {written filled : Except EncodeFailure (List UInt8)} (hwritten : written = .error failure)
    (hfilled : filled = .error failure) : AgreeBesideScale expr written filled where
  same _ := hfilled.trans hwritten.symm
  differs := by
    rintro - ⟨bytes, hok⟩
    rw [hwritten] at hok
    cases hok

/-- The answers at the address of a descriptor and at the address that its text stands for. -/
theorem answer_agreeBesideScale {inst : Instruction}
    (hcount : inst.requested.length ≤ operandLimit) (hmem : ∃ found, .mem found ∈ inst.requested)
    {expr : AddressExpr} (hplain : expr.IsPlain) (policy : DispPolicy)
    (buffer : Vector UInt8 bufferSize) :
    AgreeBesideScale expr
      (engine.answer (inst.relocate ((Address.ofExpr expr.normal).resolved engine policy)) buffer)
      (engine.answer (inst.relocate ((Address.ofExpr expr).resolved engine policy)) buffer) := by
  obtain ⟨address, haddress, hbase, hindex, hscale⟩ := readAddress_ofExpr policy expr.normal
  rw [expr.normal_base] at hbase
  rw [expr.normal_index] at hindex
  rw [resolved_normal policy expr]
  by_cases hlost : expr.index = "" ∧ 1 < expr.scale
  · have hnone : address.index = none := by rw [hindex, hlost.1, registerNamed?_empty]
    have hplainScale : address.scaleField? = some 0 := by
      rw [Memory.scaleField?, hscale, AddressExpr.normal, hlost.1]
      rfl
    obtain ⟨field, hshift, hfield⟩ := exists_scaleField hplain.scale hlost.2
    have hunused : WritesUnusedScale expr ↔ address.base.any Register.isStackBase := by
      rw [hbase]
      exact ⟨fun h => h.2.2, fun h => ⟨hlost.1, hlost.2, h⟩⟩
    refine ⟨fun h => ?_, fun hwrites hok => ⟨field, hshift, ?_⟩⟩
    · rw [hunused] at h
      exact answer_congr_unusedScale hcount hmem haddress buffer hnone hplainScale (hfield address)
        h
    · exact answer_differsInScale hcount hmem haddress buffer hnone hplainScale (hfield address)
        (hunused.mp hwrites) hok
  · have hequal := answer_congr_scaleField hcount hmem haddress buffer
      (scaleField?_normal hlost hscale)
    exact ⟨fun _ => hequal, fun hwrites => absurd ⟨hwrites.1, hwrites.2.1⟩ hlost⟩

/-- **An address in one text, or in its parts.** In every session with the reader of address
expressions, whatever was asked before and whatever follows, a memory operand at the text of a plain
descriptor encodes as one whose address is filled in from the fields, exactly when no unused scale
is written. When one is, the bytes differ in the scale of SIB. -/
theorem answer_filled_eq_written_iff {actions : List TeamAction} {session : Session engine}
    (hsession : session ∈ ((Team.new engine).run actions).members)
    (hreader : session.encoder.reader = AddressExpr.parse) {expr : AddressExpr}
    (hplain : expr.IsPlain) (width : UInt16) {after : List Step}
    (hafter : ∀ step ∈ after, step.setsAddress = false) :
    let written := ((session.follow (Step.written width expr)).follow after).answer
    let filled := ((session.follow (Step.filled width expr)).follow after).answer
    (filled = written ↔ ¬ (WritesUnusedScale expr ∧ ∃ bytes, written = .ok bytes))
      ∧ (WritesUnusedScale expr → (∃ bytes, written = .ok bytes) →
        ∃ field : Fin 4, 1 <<< field.val = expr.scale.toNat
          ∧ DiffersInScale field written filled) := by
  intro written filled
  have hdiffer := (Session.differInAddress_routes hreader hplain width).follow hafter
  have hlex := Session.follow_lexicon (Session.follow_lexicon
    (Team.faithful_run engine actions session hsession) (Step.written width expr)) after
  have hagree : AgreeBesideScale expr written filled := by
    change AgreeBesideScale expr (Encoder.encode _ _).result (Encoder.encode _ _).result
    rw [hdiffer.encoder]
    rcases Encoder.encode_result_cases hlex hdiffer.request (hasValidScale_normal hplain)
      (hasValidScale hplain) with
      ⟨failure, hleft, hright⟩ | ⟨inst, policy, hcount, hmem, hleft, hright⟩
    · exact .of_failure hleft hright
    · rw [hleft, hright]
      exact answer_agreeBesideScale hcount hmem hplain policy _
  refine ⟨⟨?_, hagree.same⟩, hagree.differs⟩
  rintro heq ⟨hwrites, hok⟩
  obtain ⟨field, hshift, hdiffers⟩ := hagree.differs hwrites hok
  refine hdiffers.ne ?_ heq
  rintro rfl
  have hlt := UInt8.lt_iff_toNat_lt.mp hwrites.2.1
  rw [← hshift] at hlt
  exact absurd hlt (by decide)

/-- ADD EAX, [ECX+EDX*4+0x44] in 32-bit mode, with the operand size set at the end. -/
theorem answer_filled_eq_written_scaled :
    let actions : List TeamAction :=
      [.act 0 (.setMode .mode32), .act 0 (.request "ADD"), .act 0 (.step (.reg "EAX"))]
    let expr : AddressExpr := { base := "ECX", index := "EDX", scale := 4, disp := 0x44 }
    ∃ session ∈ ((Team.new engine).run actions).members,
      let written := ((session.follow (Step.written 32 expr)).follow [.size .bits32]).answer
      let filled := ((session.follow (Step.filled 32 expr)).follow [.size .bits32]).answer
      session.encoder.reader = AddressExpr.parse ∧ expr.IsPlain ∧ filled = written
        ∧ written.toOption = some [0x03, 0x44, 0x91, 0x44] := by
  intro actions expr
  have hlength : 0 < ((Team.new engine).run actions).members.length := by decide +kernel
  have hbytes : (((((Team.new engine).run actions).members[0].follow
      (Step.written 32 expr)).follow [.size .bits32]).answer).toOption
      = some [0x03, 0x44, 0x91, 0x44] := by
    decide +kernel +revert
  have hreader :
      ((Team.new engine).run actions).members[0].encoder.reader = AddressExpr.parse := rfl
  have hplain : expr.IsPlain := by
    refine ⟨by simp [expr, AddressExpr.isOperator], by simp [expr, AddressExpr.isOperator],
      by decide, ?_, by decide⟩
    rintro ⟨c, rest, htext, hdigit⟩
    have hindex : "EDX".toList = ['E', 'D', 'X'] := by decide
    cases hindex.symm.trans htext
    exact absurd hdigit (by decide)
  have hused : ¬ WritesUnusedScale expr := fun h => absurd h.1 (by decide)
  refine ⟨_, List.getElem_mem hlength, hreader, hplain, ?_, hbytes⟩
  have hmem := List.getElem_mem hlength
  exact (answer_filled_eq_written_iff hmem hreader hplain 32 (by decide)).1.mpr fun h => hused h.1

/-- MOV EAX, [RSP] with a scale of 8 is 8B 04 24 at its text and 8B 04 E4 by its fields. -/
theorem exists_filled_ne_written :
    let actions : List TeamAction := [.act 0 (.request "MOV"), .act 0 (.step (.reg "EAX"))]
    let expr : AddressExpr := { base := "RSP", scale := 8 }
    ∃ session ∈ ((Team.new engine).run actions).members,
      session.encoder.reader = AddressExpr.parse ∧ expr.IsPlain
        ∧ (session.follow (Step.written 32 expr)).answer.toOption = some [0x8B, 0x04, 0x24]
        ∧ (session.follow (Step.filled 32 expr)).answer.toOption = some [0x8B, 0x04, 0xE4] := by
  intro actions expr
  have hlength : 0 < ((Team.new engine).run actions).members.length := by decide +kernel
  have hwritten : (((Team.new engine).run actions).members[0].follow
      (Step.written 32 expr)).answer.toOption = some [0x8B, 0x04, 0x24] := by
    decide +kernel +revert
  have hfilled : (((Team.new engine).run actions).members[0].follow
      (Step.filled 32 expr)).answer.toOption = some [0x8B, 0x04, 0xE4] := by
    decide +kernel +revert
  have hplain : expr.IsPlain :=
    ⟨by simp [expr, AddressExpr.isOperator], by simp [expr], by decide,
      AddressExpr.not_looksNumeric_empty, by decide⟩
  exact ⟨_, List.getElem_mem hlength, rfl, hplain, hwritten, hfilled⟩

end MachineCode.X86
