import MachineCode.Proofs.Request.Admission
import MachineCode.Proofs.Session.Runs
import MachineCode.Session.Pushes

/-!
# The operands of a run

In every run the request holds what the rule of admission stores of the operands pushed since it was
begun, and it keeps the reason of the first refusal. Each action either begins a request, pushes one
operand, or leaves operands and misuse alone, so one step of the run is at most one push.
-/

namespace MachineCode

namespace Session

variable {engine : Engine} {session : Session engine} {pushed : List Operand}

/-- The request holds what is stored of the operands pushed, in slots filled from the front. -/
structure Holds (session : Session engine) (pushed : List Operand) : Prop where
  admits : Admits pushed session.request.operands.toList session.request.misuse
  packed : session.request.operands.Packed

theorem holds_of_begun (encoder : Encoder engine) (mnemonic : String) :
    Holds ⟨encoder, .new mnemonic⟩ [] :=
  ⟨.nil, OperandSlots.packed_empty⟩

/-- Unless it begins a request, an action changes operands and misuse as the push of its operand
does, or not at all. -/
theorem act_pushes (session : Session engine) {action : Action}
    (haction : action.beginsRequest = false) :
    let req := session.request
    let next := (session.act action).session.request
    (session.pushed? action = none ∧ next.operands = req.operands ∧ next.misuse = req.misuse)
      ∨ ∃ op, session.pushed? action = some op ∧ next.operands = (req.push op).operands
        ∧ next.misuse = (req.push op).misuse := by
  cases action with
  | step step =>
    cases step with
    | reset mnemonic => cases haction
    | reg name => exact .inr ⟨_, rfl, rfl, rfl⟩
    | regId id => exact .inr ⟨_, rfl, rfl, rfl⟩
    | imm value => exact .inr ⟨_, rfl, rfl, rfl⟩
    | mem width expr =>
      exact .inr ⟨_, rfl, Request.pushMemory_operands .., Request.pushMemory_misuse ..⟩
    | memText width text =>
      simp only [act, Session.step, pushed?]
      cases session.encoder.reader text with
      | ok expr =>
        exact .inr ⟨_, rfl, Request.pushMemory_operands .., Request.pushMemory_misuse ..⟩
      | error error => exact .inl ⟨rfl, rfl, rfl⟩
    | _ => exact .inl ⟨rfl, rfl, rfl⟩
  | request mnemonic => cases haction
  | _ => exact .inl ⟨rfl, rfl, rfl⟩

theorem act_admits (h : session.Holds pushed) {action : Action}
    (haction : action.beginsRequest = false) :
    Admits (pushed ++ (session.pushed? action).toList)
      (session.act action).session.request.operands.toList
      (session.act action).session.request.misuse := by
  rcases act_pushes session haction with ⟨hnone, hops, hmisuse⟩ | ⟨op, hop, hops, hmisuse⟩
  · rw [hnone, hops, hmisuse, Option.toList_none, List.append_nil]
    exact h.admits
  · rw [hop, hops, hmisuse]
    exact Request.admits_push h.admits h.packed.size_le op

theorem act_begun {action : Action} (haction : action.beginsRequest) :
    (session.act action).session.Holds [] := by
  cases action with
  | request mnemonic => exact holds_of_begun _ _
  | step step =>
    cases step with
    | reset mnemonic => exact holds_of_begun _ _
    | _ => cases haction
  | _ => cases haction

theorem run_holds (h : session.Holds pushed) (actions : List Action) :
    (session.run actions).Holds (session.pushes pushed actions) := by
  induction actions generalizing session pushed with
  | nil => exact h
  | cons action actions ih =>
    rw [run, List.foldl_cons, pushes]
    apply ih
    cases haction : action.beginsRequest with
    | true => exact act_begun haction
    | false => exact ⟨act_admits h haction, act_packed h.packed action⟩

theorem act_misuse {action : Action} {reason : Misuse} (haction : action.beginsRequest = false)
    (h : session.request.misuse = some reason) :
    (session.act action).session.request.misuse = some reason := by
  rcases act_pushes session haction with ⟨-, -, hmisuse⟩ | ⟨op, -, -, hmisuse⟩
  · rw [hmisuse, h]
  · rw [hmisuse]
    exact Request.misuse_push h op

theorem run_misuse {reason : Misuse} (h : session.request.misuse = some reason)
    (actions : List Action) (hactions : ∀ action ∈ actions, action.beginsRequest = false) :
    (session.run actions).request.misuse = some reason := by
  induction actions generalizing session with
  | nil => exact h
  | cons action actions ih =>
    rw [run, List.foldl_cons]
    rw [List.forall_mem_cons] at hactions
    exact ih (act_misuse hactions.1 h) hactions.2

/-- **What a request holds.** After any run from a new request, with any encoder, the request holds
the operands that the rule stores of those pushed since it was last begun, which are few and of one
memory operand and one immediate at most. Its misuse is the reason of the first refusal, and stays so
until a request is begun. -/
theorem run_request_operands (encoder : Encoder engine) (mnemonic : String)
    (actions : List Action) :
    let start : Session engine := ⟨encoder, .new mnemonic⟩
    let pushed := start.pushes [] actions
    let req := (start.run actions).request
    let stored := req.operands.toList
    (req.operands.size = stored.length ∧ stored.length ≤ 6 ∧ .empty ∉ stored
        ∧ stored.countP (fun op => op.kind == .mem) ≤ 1
        ∧ stored.countP (fun op => op.kind.isImmediate) ≤ 1)
      ∧ (∀ other first, Admits pushed other first ↔ other = stored ∧ first = req.misuse)
      ∧ (req.misuse = none ↔ stored = pushed)
      ∧ (∀ reason, req.misuse = some reason →
        ∃ before op after, pushed = before ++ op :: after ∧ Admits before before none
          ∧ Refuses before op reason)
      ∧ ∀ reason later, req.misuse = some reason →
        (∀ action ∈ later, action.beginsRequest = false) →
        ((start.run actions).run later).request.misuse = some reason := by
  intro start pushed req stored
  have hholds : (start.run actions).Holds pushed :=
    run_holds (holds_of_begun encoder mnemonic) actions
  have hadmits : Admits pushed stored req.misuse := hholds.admits
  have hsize : stored.length = req.operands.size :=
    OperandSlots.length_toList hholds.packed.size_le
  refine ⟨⟨hsize.symm, hadmits.length_le, hholds.packed.not_empty, hadmits.countP_memory_le,
    hadmits.countP_immediate_le⟩, ?_, hadmits.eq_none_iff, ?_, ?_⟩
  · intro other first
    constructor
    · intro hother
      exact hother.unique hadmits
    · rintro ⟨rfl, rfl⟩
      exact hadmits
  · intro reason hreason
    rw [hreason] at hadmits
    exact hadmits.exists_first
  · intro reason later hreason hlater
    exact run_misuse hreason later hlater

end Session

end MachineCode
