import MachineCode.Proofs.Request.SlotCalls
import MachineCode.Proofs.Request.Texts
import MachineCode.Proofs.Session.Pushes
import MachineCode.Proofs.Session.Teams
import MachineCode.Proofs.X86.Spelling

/-!
# What the text of a request shows

The operands of every request were left by calls on its slots, and the register names of the engine are
apart. So the text of a request shows its operands: with one mnemonic, other operands have another text.
-/

namespace MachineCode

/-! ### Slots of a run -/

theorem Session.exists_act_operands {engine : Engine} (session : Session engine) (action : Action) :
    ∃ calls, (session.act action).session.request.operands
      = session.request.operands.after calls := by
  cases haction : action.beginsRequest with
  | true =>
    refine ⟨[.clear], ?_⟩
    cases action with
    | request mnemonic => rfl
    | step step =>
      cases step with
      | reset mnemonic => rfl
      | _ => cases haction
    | _ => cases haction
  | false =>
    rcases act_pushes session haction with ⟨-, hops, -⟩ | ⟨op, -, hops, -⟩
    · exact ⟨[], hops⟩
    · rw [hops]
      exact session.request.exists_push_operands op

/-- In every run, the operands of a request were left by calls on new slots. -/
theorem Team.exists_operands_run (engine : Engine) (actions : List TeamAction) :
    ∀ session ∈ ((Team.new engine).run actions).members,
      ∃ calls, session.request.operands = OperandSlots.empty.after calls := by
  refine Kept.run ⟨⟨[], rfl⟩, ?_, ?_, ?_⟩ actions
  · rintro session ⟨calls, hcalls⟩ action
    obtain ⟨more, hmore⟩ := session.exists_act_operands action
    exact ⟨calls ++ more, by rw [hmore, hcalls, OperandSlots.after_append]⟩
  · exact fun _ => ⟨[], rfl⟩
  · exact fun h _ => h

namespace X86

theorem all_name : ∀ reg ∈ Register.all,
    reg.name.toList.all fun c => c.isUpper || c.isDigit := by
  decide +kernel

theorem namesApart : engine.NamesApart where
  isUpper_or_isDigit {id name} h := by
    obtain ⟨hname, -⟩ := (spells_registers.name?_eq_some_iff id name).mp h
    obtain ⟨reg, hreg, rfl⟩ := List.mem_map.mp hname
    intro c hc
    exact Bool.or_eq_true_iff.mp (List.all_eq_true.mp (all_name reg hreg) c hc)
  eq_of_name? {id other name} h hother := by
    rw [← ((spells_registers.name?_eq_some_iff id name).mp h).2]
    exact ((spells_registers.name?_eq_some_iff other name).mp hother).2

/-- **A text shows its operands.** Take two requests from any runs over the x86 engine, with one
mnemonic, and with ids or names of letters and digits in the address of a memory operand. They have
the same text if and only if they have the same operands and, for a memory operand, addresses with
the same text. -/
theorem text_eq_iff_operands_eq {first second : List TeamAction} {left right : Session engine}
    (hleft : left ∈ ((Team.new engine).run first).members)
    (hright : right ∈ ((Team.new engine).run second).members)
    (hmnemonic : left.request.mnemonic = right.request.mnemonic)
    (hleftNames : left.request.IsAlphanumeric) (hrightNames : right.request.IsAlphanumeric) :
    left.request.text engine = right.request.text engine ↔
      left.request.operands = right.request.operands ∧ (left.request.operands.hasMemory →
        (left.request.address.toExpr engine).render
          = (right.request.address.toExpr engine).render) := by
  obtain ⟨leftCalls, hleftCalls⟩ := Team.exists_operands_run engine first left hleft
  obtain ⟨rightCalls, hrightCalls⟩ := Team.exists_operands_run engine second right hright
  have hoperands : left.request.operands = right.request.operands ↔
      left.request.operands.toList = right.request.operands.toList := by
    rw [hleftCalls, hrightCalls]
    exact OperandSlots.after_empty_eq_iff
  rw [hoperands]
  exact text_eq_iff namesApart hmnemonic hleftNames hrightNames

/-- An address read from text shows the same as one with a register that was given by its id. -/
theorem operands_eq_of_text_movIndexed :
    let first : List TeamAction :=
      [.act 0 (.request "MOV"), .act 0 (.step (.reg "eax")),
        .act 0 (.step (.memText 32 "ECX+EDX*4"))]
    let second : List TeamAction :=
      [.act 0 (.request "MOV"), .act 0 (.step (.regId ⟨17⟩)), .act 0 (.step (.mem 32 {})),
        .act 0 (.step (.base "ECX")), .act 0 (.step (.indexId ⟨19⟩)), .act 0 (.step (.scale 4))]
    ∃ left ∈ ((Team.new engine).run first).members,
      ∃ right ∈ ((Team.new engine).run second).members,
        left.request.mnemonic = right.request.mnemonic
          ∧ (left.request.IsAlphanumeric ∧ right.request.IsAlphanumeric)
          ∧ (left.request.address ≠ right.request.address
            ∧ left.request.text engine = "MOV EAX, mem32[ECX+EDX*4]")
          ∧ left.request.text engine = right.request.text engine
          ∧ left.request.operands = right.request.operands := by
  intro first second
  have hfirst : ∃ left ∈ ((Team.new engine).run first).members, left.request
      = ((Request.new "MOV").push (.reg ⟨17⟩)).pushMemory 32 ⟨.name "ECX", .name "EDX", 4, 0⟩ := by
    decide +kernel +revert
  have hsecond : ∃ right ∈ ((Team.new engine).run second).members, right.request
      = ((Request.new "MOV").push (.reg ⟨17⟩)).pushMemory 32 ⟨.name "ECX", .id ⟨19⟩, 4, 0⟩ := by
    decide +kernel +revert
  obtain ⟨left, hleft, hleftRequest⟩ := hfirst
  obtain ⟨right, hright, hrightRequest⟩ := hsecond
  obtain ⟨hmnemonic, ⟨hleftNames, hrightNames⟩, hshown, htext⟩ :
      left.request.mnemonic = right.request.mnemonic
        ∧ (left.request.IsAlphanumeric ∧ right.request.IsAlphanumeric)
        ∧ (left.request.address ≠ right.request.address
          ∧ left.request.text engine = "MOV EAX, mem32[ECX+EDX*4]")
        ∧ left.request.text engine = right.request.text engine := by
    rw [hleftRequest, hrightRequest]
    decide +kernel
  refine ⟨left, hleft, right, hright, hmnemonic, ⟨hleftNames, hrightNames⟩, hshown, htext, ?_⟩
  exact ((text_eq_iff_operands_eq hleft hright hmnemonic hleftNames hrightNames).mp htext).1

end X86

end MachineCode
