import MachineCode.Proofs.Session.Teams
import MachineCode.X86.Engine

/-!
# Encoding has no memory

What an encode call answers depends on the request, the mode and the displacement policy alone. The
history of an encoder shows in three places: in its names, which are those of the tables, in its
buffer, of which only bytes that the engine has just written are handed out, and in its last error,
which is not read.
-/

namespace MachineCode

/-! ### Engines -/

theorem take_toList_congr {size count : Nat} {left right : Vector UInt8 size}
    (h : ∀ index : Fin size, index.val < count → left.get index = right.get index) :
    left.toList.take (min count size) = right.toList.take (min count size) := by
  apply List.ext_getElem
  · simp only [List.length_take, Vector.length_toList]
  · intro index hindex _
    rw [List.length_take, Vector.length_toList] at hindex
    have hsize : index < size := by omega
    have hcount : index < count := by omega
    have hbyte : left[index] = right[index] := h ⟨index, hsize⟩ hcount
    simpa using hbyte

theorem Engine.Determined.answer_congr {engine : Engine} (h : engine.Determined)
    (inst : Instruction) (first second : Vector UInt8 bufferSize) :
    engine.answer inst first = engine.answer inst second := by
  have hanswer := h.answer_eq (engine.prepare inst) first second
  have hwritten {count : Nat} := @h.written_eq (engine.prepare inst) first count
  rw [answer, answer]
  generalize engine.emit (engine.prepare inst) first = left at hanswer hwritten
  generalize hright : engine.emit (engine.prepare inst) second = right at hanswer
  obtain ⟨answer, left⟩ := left
  obtain ⟨_, right⟩ := right
  cases hanswer
  cases answer with
  | error fault => rfl
  | ok count =>
    have htake : left.toList.take (min count bufferSize)
        = right.toList.take (min count bufferSize) := by
      apply take_toList_congr
      intro index hindex
      have hbyte := hwritten rfl second index hindex
      rwa [hright] at hbyte
    exact congrArg Except.ok htake

namespace X86

variable {inst : Instruction} {size count : Nat}

theorem emit_answer_congr (inst : Instruction) (first second : Vector UInt8 size) :
    (emit inst first).1 = (emit inst second).1 := by
  rw [emit, emit]
  cases encode inst with
  | error fault => rfl
  | ok bytes => by_cases hroom : bytes.length ≤ size <;> simp [hroom]

theorem emit_written_congr {first : Vector UInt8 size} (hcount : (emit inst first).1 = .ok count)
    (second : Vector UInt8 size) (index : Fin size) (hindex : index.val < count) :
    (emit inst first).2[index] = (emit inst second).2[index] := by
  rw [emit] at hcount
  rw [emit, emit]
  cases hencode : encode inst with
  | error fault =>
    rw [hencode] at hcount
    cases hcount
  | ok bytes =>
    rw [hencode] at hcount
    by_cases hroom : bytes.length ≤ size
    · simp only [if_pos hroom] at hcount
      cases hcount
      simp [hroom, overwrite, hindex]
    · simp [hroom] at hcount

theorem engine_determined : engine.Determined where
  answer_eq inst first second := emit_answer_congr inst first second
  written_eq hcount second index hindex := emit_written_congr hcount second index hindex

end X86

/-! ### Encoders -/

namespace Encoder

variable {engine : Engine}

theorem encode_result_congr (hengine : engine.Determined) {left right : Encoder engine}
    (hleft : left.lexicon.Faithful engine) (hright : right.lexicon.Faithful engine)
    (hmode : left.mode = right.mode) (hpolicy : left.dispPolicy = right.dispPolicy)
    (req : Request) : (left.encode req).result = (right.encode req).result := by
  rw [encode_result hleft, encode_result hright, hmode, hpolicy]
  cases req.rejection? with
  | some failure => rfl
  | none =>
    cases req.instruction? engine right.mode right.dispPolicy with
    | none => rfl
    | some inst => exact hengine.answer_congr inst left.buffer right.buffer

end Encoder

/-! ### Teams -/

/-- **Encoding has no memory.** Take an engine that is determined by the instruction, as the x86
engine is. Two encoders that ran among clones of their own, from new ones on, answer a request alike
if they agree in mode and displacement policy, and asked again they give the same answer. -/
theorem encode_result_determined :
    X86.engine.Determined
      ∧ ∀ {engine : Engine}, engine.Determined → ∀ (first second : List TeamAction)
        {left right : Session engine}, left ∈ ((Team.new engine).run first).members →
        right ∈ ((Team.new engine).run second).members →
        left.encoder.mode = right.encoder.mode →
        left.encoder.dispPolicy = right.encoder.dispPolicy → ∀ req : Request,
        (left.encoder.encode req).result = (right.encoder.encode req).result
          ∧ ((left.encoder.encode req).encoder.encode req).result
            = (left.encoder.encode req).result := by
  refine ⟨X86.engine_determined, ?_⟩
  intro engine hengine first second left right hleft hright hmode hpolicy req
  have hleftNames := Team.faithful_run engine first left hleft
  have hrightNames := Team.faithful_run engine second right hright
  obtain ⟨hmodeKept, hpolicyKept, -⟩ := left.encoder.encode_settings req
  constructor
  · exact Encoder.encode_result_congr hengine hleftNames hrightNames hmode hpolicy req
  · exact Encoder.encode_result_congr hengine (Encoder.encode_lexicon hleftNames req) hleftNames
      hmodeKept hpolicyKept req

/-- MOV EAX, [RCX+5] on an encoder whose last call failed, and on the clone of one that has encoded
MOV EAX, ECX. -/
theorem encode_result_determined_clone :
    let first : List TeamAction := [.act 0 (.request "FROB"), .act 0 (.encode .result)]
    let second : List TeamAction :=
      [.act 0 (.request "MOV"), .act 0 (.step (.reg "EAX")), .act 0 (.step (.reg "ECX")),
        .act 0 (.encode .hex), .split 0, .act 0 (.setMode .mode32)]
    let req := ((Request.new "MOV").push (.reg ⟨17⟩)).pushMemory 32 { base := .name "RCX", disp := 5 }
    ∃ left ∈ ((Team.new X86.engine).run first).members,
      ∃ right ∈ ((Team.new X86.engine).run second).members,
        (left.encoder.lexicon ≠ right.encoder.lexicon
            ∧ left.encoder.lastError ≠ right.encoder.lastError)
          ∧ (left.encoder.mode = right.encoder.mode
            ∧ left.encoder.dispPolicy = right.encoder.dispPolicy)
          ∧ (left.encoder.encode req).result = .ok [0x8B, 0x41, 5]
          ∧ (left.encoder.encode req).result = (right.encoder.encode req).result := by
  intro first second req
  have hleft : 0 < ((Team.new X86.engine).run first).members.length := by decide +kernel
  have hright : 1 < ((Team.new X86.engine).run second).members.length := by decide +kernel
  have hbytes : (((Team.new X86.engine).run first).members[0].encoder.encode req).result
      = .ok [0x8B, 0x41, 5] := by decide +kernel +revert
  have hmode : ((Team.new X86.engine).run first).members[0].encoder.mode
      = ((Team.new X86.engine).run second).members[1].encoder.mode := by decide +kernel +revert
  have hpolicy : ((Team.new X86.engine).run first).members[0].encoder.dispPolicy
      = ((Team.new X86.engine).run second).members[1].encoder.dispPolicy := by
    decide +kernel +revert
  refine ⟨_, List.getElem_mem hleft, _, List.getElem_mem hright, by decide +kernel +revert,
    ⟨hmode, hpolicy⟩, hbytes, ?_⟩
  exact (encode_result_determined.2 encode_result_determined.1 first second
    (List.getElem_mem hleft) (List.getElem_mem hright) hmode hpolicy req).1

end MachineCode
