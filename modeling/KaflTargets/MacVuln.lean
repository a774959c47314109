import KaflTargets.Lib.LocalArray

/-!
# The macOS test driver (`macOS_x86_64/vuln_driver/vuln.c`)

A write to the device is copied to a local array, at most 255 bytes of it, and the array is
compared with two words. Nothing terminates the copied bytes, so the comparisons of an input
that ends within a word go on in what the stack held before.

Results:
1. `vulnWrite_eq`: the driver decides on the input followed by the leftovers.
2. `vulnWrite_faithful_iff`: for which inputs the leftovers do not matter.
-/

namespace KaflTargets.MacVuln

open CString

/-! ## The driver -/

def BUFFERSIZE : Nat := 255

/-- Why `vuln_write` does not return. -/
inductive Fatal
  /-- `PANIC`: a write to the address 0. -/
  | panic
  /-- A write past the end of `buffer`. -/
  | overflow
  deriving DecidableEq

/-- `PANIC`. -/
def panic : Except Fatal Unit := .error .panic

/-- `vuln_write`, for a write of the bytes `uio`. The array `buffer` holds `stack` at first;
`copyin` is what the call of that name returns. -/
def vulnWrite (stack : LocalArray (BUFFERSIZE + 1)) (copyin : Int) (uio : Bytes) :
    Except Fatal Int := do
  let iosize := if BUFFERSIZE ≤ uio.length then BUFFERSIZE else uio.length
  if copyin ≠ 0 then
    return -1
  let buffer ← stack.memcpy .overflow 0 (uio.take iosize)
  if buffer.probe 0 (ascii "KERNELAFL") then
    panic
  if buffer.probe 0 (ascii "macOS!") then
    panic
  return 0

/-! ## Definitions -/

/-- The input starts with one of the words. -/
def Boom (input : Bytes) : Prop := ascii "KERNELAFL" <+: input ∨ ascii "macOS!" <+: input

instance (input : Bytes) : Decidable (Boom input) := inferInstanceAs (Decidable (_ ∨ _))

/-- The driver decides on the bytes it copies, whatever the stack held. -/
structure Faithful (uio : Bytes) : Prop where
  panics : ∀ stack, vulnWrite stack 0 uio = .error .panic ↔ Boom (uio.take 255)
  returns : ∀ stack, vulnWrite stack 0 uio = .ok 0 ↔ ¬Boom (uio.take 255)
  independent : ∀ stack stack', vulnWrite stack 0 uio = vulnWrite stack' 0 uio

/-- The condition: the copied bytes do not end within a word. -/
def Decided (uio : Bytes) : Prop :=
  ¬EndsWithin (uio.take 255) (ascii "KERNELAFL") ∧ ¬EndsWithin (uio.take 255) (ascii "macOS!")

/-! ## 1. The bytes that count -/

namespace VulnLemmas

theorem take_clamped (uio : Bytes) :
    uio.take (if BUFFERSIZE ≤ uio.length then BUFFERSIZE else uio.length) = uio.take 255 := by
  unfold BUFFERSIZE
  split_ifs with h
  · rfl
  · rw [List.take_length, List.take_of_length_le (Nat.le_of_not_le h)]

theorem copied_le (uio : Bytes) : 0 + (uio.take 255).length ≤ BUFFERSIZE + 1 := by
  rw [Nat.zero_add, List.length_take]
  exact (Nat.min_le_left 255 _).trans (Nat.le_succ 255)

theorem boom_iff (buffer : LocalArray (BUFFERSIZE + 1)) :
    Boom buffer.bytes ↔
      buffer.probe 0 (ascii "KERNELAFL") = true ∨ buffer.probe 0 (ascii "macOS!") = true := by
  rw [LocalArray.probe_iff, LocalArray.probe_iff]
  rfl

end VulnLemmas

open VulnLemmas

theorem vulnWrite_eq (stack : LocalArray (BUFFERSIZE + 1)) (uio : Bytes) :
    vulnWrite stack 0 uio =
      if Boom (overwrite stack.bytes 0 (uio.take 255)) then .error .panic else .ok 0 := by
  obtain ⟨buffer, hrun, hbytes⟩ := stack.memcpy_run (copied_le uio) Fatal.overflow
  unfold vulnWrite
  dsimp only
  rw [if_neg (fun h => h rfl), take_clamped, hrun, ← hbytes]
  show (if buffer.probe 0 (ascii "KERNELAFL") = true then panic >>= _ else _) = _
  cases hkernel : buffer.probe 0 (ascii "KERNELAFL") with
  | true =>
    rw [if_pos ((boom_iff buffer).mpr (.inl hkernel))]
    rfl
  | false =>
    cases hmac : buffer.probe 0 (ascii "macOS!") with
    | true =>
      rw [if_pos ((boom_iff buffer).mpr (.inr hmac))]
      rfl
    | false =>
      have hnone : ¬Boom buffer.bytes := by
        rw [boom_iff, hkernel, hmac]
        simp
      rw [if_neg Bool.false_ne_true, if_neg hnone]
      rfl

/-! ## 2. The leftovers -/

namespace VulnLemmas

/-- An input that does not end within a word is decided by itself. -/
theorem boom_overwrite_iff {uio : Bytes} (h : Decided uio)
    (stack : LocalArray (BUFFERSIZE + 1)) :
    Boom (overwrite stack.bytes 0 (uio.take 255)) ↔ Boom (uio.take 255) := by
  unfold Boom
  rw [overwrite_zero, prefix_append_iff h.1, prefix_append_iff h.2]

/-- The stack holds the word already. -/
theorem completed_run {uio word : Bytes} (hlength : word.length ≤ BUFFERSIZE + 1)
    (hboom : ∀ rest, Boom (word ++ rest)) (h : uio.take 255 <+: word) :
    vulnWrite (LocalArray.filled _ word) 0 uio = .error .panic := by
  rw [vulnWrite_eq, LocalArray.filled_start hlength, overwrite_completes h, if_pos (hboom _)]

theorem undecided_run {uio : Bytes} (h : ¬Decided uio) :
    ∃ stack, vulnWrite stack 0 uio = .error .panic := by
  unfold Decided at h
  rcases not_and_or.mp h with hkernel | hmac
  · have hwithin := not_not.mp hkernel
    exact ⟨_, completed_run (by decide) (fun rest => .inl (List.prefix_append _ _)) hwithin.1⟩
  · have hwithin := not_not.mp hmac
    exact ⟨_, completed_run (by decide) (fun rest => .inr (List.prefix_append _ _)) hwithin.1⟩

/-- An input that ends within one word does not start with the other. -/
theorem undecided_not_boom {uio : Bytes} (h : ¬Decided uio) : ¬Boom (uio.take 255) := by
  unfold Decided at h
  rintro (hstart | hstart)
  · rcases not_and_or.mp h with hkernel | hmac
    · exact (not_not.mp hkernel).not_startsWith hstart
    · have hboth := hstart.trans (not_not.mp hmac).1
      revert hboth
      decide
  · rcases not_and_or.mp h with hkernel | hmac
    · have hboth := hstart.trans (not_not.mp hkernel).1
      revert hboth
      decide
    · exact (not_not.mp hmac).not_startsWith hstart

/-- A stack of zeros ends the input. -/
theorem zeros_run {uio : Bytes} (h : ¬Boom (uio.take 255)) :
    vulnWrite (LocalArray.filled _ []) 0 uio = .ok 0 := by
  have hcopied : (uio.take 255).length < BUFFERSIZE + 1 :=
    Nat.lt_succ_of_le (List.length_take_le 255 uio)
  rw [vulnWrite_eq, overwrite_zero, LocalArray.filled_zeros hcopied, if_neg]
  unfold Boom
  rw [prefix_terminated_iff (by decide), prefix_terminated_iff (by decide)]
  exact h

theorem faithful_of_decided {uio : Bytes} (h : Decided uio) : Faithful uio := by
  refine ⟨fun stack => ?_, fun stack => ?_, fun stack stack' => ?_⟩
  · rw [vulnWrite_eq, ← boom_overwrite_iff h stack]
    split_ifs with hboom <;> simp [hboom]
  · rw [vulnWrite_eq, ← boom_overwrite_iff h stack]
    split_ifs with hboom <;> simp [hboom]
  · rw [vulnWrite_eq, vulnWrite_eq]
    simp only [boom_overwrite_iff h]

end VulnLemmas

/-- The verdict is that of the copied bytes exactly if these do not end within a word. -/
theorem vulnWrite_faithful_iff (uio : Bytes) : Faithful uio ↔ Decided uio := by
  constructor
  · intro hfaithful
    by_contra hwithin
    obtain ⟨stack, hrun⟩ := undecided_run hwithin
    exact undecided_not_boom hwithin ((hfaithful.panics stack).mp hrun)
  · exact faithful_of_decided

/-- Two runs on the same bytes are alike exactly for the same inputs. -/
theorem vulnWrite_independent_iff (uio : Bytes) :
    (∀ stack stack', vulnWrite stack 0 uio = vulnWrite stack' 0 uio) ↔ Decided uio := by
  constructor
  · intro hsame
    by_contra hwithin
    obtain ⟨stack, hrun⟩ := undecided_run hwithin
    rw [hsame stack (LocalArray.filled _ []), zeros_run (undecided_not_boom hwithin)] at hrun
    cases hrun
  · intro hdecided
    exact (faithful_of_decided hdecided).independent

/-- The input is a single letter, and an earlier one left the rest of the word. -/
theorem vulnWrite_leftover :
    ¬Faithful (ascii "K") ∧
      vulnWrite (LocalArray.filled _ (ascii "XERNELAFL")) 0 (ascii "K") = .error .panic ∧
      vulnWrite (LocalArray.filled _ []) 0 (ascii "K") = .ok 0 := by
  have hrun : vulnWrite (LocalArray.filled _ (ascii "XERNELAFL")) 0 (ascii "K") =
      .error .panic := rfl
  refine ⟨fun hfaithful => ?_, hrun, rfl⟩
  have hboom : Boom ((ascii "K").take 255) := (hfaithful.panics _).mp hrun
  revert hboom
  decide

end KaflTargets.MacVuln
