import KaflTargets.Lib.LocalArray
import KaflTargets.Zephyr

/-!
# The Zephyr test target (`zephyr_x86_32/src/target_test.c`)

The target copies the input to a local array of 32 bytes and compares it with four words.
The array is not initialised. It is terminated after the input, and the comparisons stop at
the first byte that differs, so they do not get past the terminator.

Results:
1. `targetEntry_eq`: the target decides on the bytes it copied.
2. `targetEntry_verdict`: when it panics, when it oopses, what it returns.
3. `agentRun_leftovers`: no run of the agent depends on what the stack holds.
-/

namespace KaflTargets.Zephyr

open CString

/-! ## The target -/

def INPUT_LENGTH : Nat := 32

/-- Why `target_entry` does not return. The text was printed before. -/
inductive Fatal
  | panic (bug : Bytes)
  | oops (bug : Bytes)
  /-- A write past the end of `input`. -/
  | overflow
  deriving DecidableEq

/-- `printk`, then `k_panic`. -/
def kPanic (bug : Bytes) : Except Fatal Unit := .error (.panic bug)

/-- `printk`, then `k_oops`. -/
def kOops (bug : Bytes) : Except Fatal Unit := .error (.oops bug)

/-- `target_entry`. The array `input` holds `stack` at first. -/
def targetEntry (stack : LocalArray INPUT_LENGTH) (mem : Mem) (buf len : Nat) :
    Except Fatal Nat := do
  let len := if INPUT_LENGTH ≤ len then INPUT_LENGTH - 1 else len
  let input ← stack.memcpy .overflow 0 (mem.load buf len)
  let input ← input.memcpy .overflow len [0]
  if input.probe 0 (ascii "KERNELAFL") then
    kPanic (ascii "BUG: KERNELAFL\n")
  if input.probe 0 (ascii "SERGEJ") then
    kPanic (ascii "BUG: SERGEJ\n")
  -- memory corruption
  if input.probe 0 (ascii "KASAN") then
    kOops (ascii "BUG: KASAN\n")
  if strncmpEq (cstr input.bytes) (ascii "RedQueen") (ascii "RedQueen").length then
    kOops (ascii "BUG: RedQueen\n")
  pure len

/-- `k_sys_fatal_error_handler`. -/
def kSysFatalErrorHandler : Fatal → Guest Unit
  | .oops _ => do
    let _ ← kAFLHypercall (.kasan 0)
    Prog.stop .halted
  | .panic _ => do
    let _ ← kAFLHypercall (.panic 0)
    Prog.stop .halted
  | .overflow => Prog.stop .overflow

/-- The call of `target_entry` in `agent_run`, with the size as a `size_t` of 32 bits. What
is on the stack depends on all that happened before. -/
def callTarget (stack : World → LocalArray INPUT_LENGTH) (buf : Nat) (size : Int) :
    Guest Unit := do
  let w ← Prog.gets id
  match targetEntry (stack w) w.mem buf (size % 2 ^ 32).toNat with
  | .ok _ => pure ()
  | .error fatal => kSysFatalErrorHandler fatal

/-! ## 1. The bytes that count -/

/-- What the target does with an input of at most 31 bytes. -/
def verdict (input : Bytes) : Except Fatal Nat :=
  if ascii "KERNELAFL" <+: input then .error (.panic (ascii "BUG: KERNELAFL\n"))
  else if ascii "SERGEJ" <+: input then .error (.panic (ascii "BUG: SERGEJ\n"))
  else if ascii "KASAN" <+: input then .error (.oops (ascii "BUG: KASAN\n"))
  else if ascii "RedQueen" <+: input then .error (.oops (ascii "BUG: RedQueen\n"))
  else .ok input.length

namespace TargetLemmas

/-- The two writes leave the input, its terminator and the rest of the leftovers. -/
theorem input_run (stack : LocalArray INPUT_LENGTH) {data : Bytes}
    (h : data.length + [(0 : UInt8)].length ≤ INPUT_LENGTH) :
    ∃ copied input : LocalArray INPUT_LENGTH,
      stack.memcpy Fatal.overflow 0 data = .ok copied ∧
        copied.memcpy Fatal.overflow data.length [0] = .ok input ∧
          ∃ rest, input.bytes = data ++ 0 :: rest := by
  have hdata : 0 + data.length ≤ INPUT_LENGTH := by
    rw [Nat.zero_add]
    exact Nat.le_of_succ_le h
  obtain ⟨copied, hcopied, hbytes⟩ := stack.memcpy_run hdata Fatal.overflow
  obtain ⟨input, hinput, hterminated⟩ := copied.memcpy_run h Fatal.overflow
  refine ⟨copied, input, hcopied, hinput, ?_⟩
  rw [hterminated, hbytes, overwrite_zero, overwrite, List.take_left, List.append_assoc]
  exact ⟨_, rfl⟩

theorem probe_terminated {input : LocalArray INPUT_LENGTH} {data rest word : Bytes}
    (h : input.bytes = data ++ 0 :: rest) (hword : 0 ∉ word) :
    input.probe 0 word = true ↔ word <+: data := by
  rw [LocalArray.probe_iff, h, prefix_terminated_iff hword]

theorem strncmp_terminated {input : LocalArray INPUT_LENGTH} {data rest word : Bytes}
    (h : input.bytes = data ++ 0 :: rest) (hword : 0 ∉ word) :
    strncmpEq (cstr input.bytes) word word.length = true ↔ word <+: data := by
  rw [strncmpEq_iff_startsWith hword, prefix_cstr_iff hword, h, prefix_terminated_iff hword]

/-- One comparison of the target with what it is about. -/
theorem check_eq {c p : Prop} [Decidable c] [Decidable p] {fatal : Fatal}
    {rest : Unit → Except Fatal Nat} {result : Except Fatal Nat} (h : c ↔ p)
    (hrest : rest () = result) :
    (if c then (.error fatal : Except Fatal Unit) >>= rest else rest ()) =
      if p then .error fatal else result := by
  by_cases hp : p
  · rw [if_pos (h.mpr hp), if_pos hp]
    rfl
  · rw [if_neg (mt h.mp hp), if_neg hp, hrest]

/-- The number of bytes that are copied. -/
theorem clamped_eq (len : Nat) :
    (if INPUT_LENGTH ≤ len then INPUT_LENGTH - 1 else len) = min len 31 := by
  unfold INPUT_LENGTH
  split <;> omega

theorem clamped_lt (len : Nat) : min len 31 + [(0 : UInt8)].length ≤ INPUT_LENGTH :=
  Nat.succ_le_succ (Nat.min_le_right len 31)

end TargetLemmas

open TargetLemmas

theorem targetEntry_eq (stack : LocalArray INPUT_LENGTH) (mem : Mem) (buf len : Nat) :
    targetEntry stack mem buf len = verdict (mem.load buf (min len 31)) := by
  have hlength : (mem.load buf (min len 31)).length = min len 31 := Mem.load_length
  unfold targetEntry
  dsimp only
  rw [clamped_eq]
  generalize mem.load buf (min len 31) = data at hlength
  obtain ⟨copied, input, hcopied, hinput, rest, hbytes⟩ :=
    input_run stack (hlength ▸ clamped_lt len)
  rw [← hlength, hcopied]
  show (copied.memcpy Fatal.overflow data.length [0] >>= _) = _
  rw [hinput]
  show (if input.probe 0 (ascii "KERNELAFL") = true then kPanic _ >>= _ else _) = _
  unfold verdict
  refine check_eq (probe_terminated hbytes (by decide : 0 ∉ ascii "KERNELAFL")) ?_
  refine check_eq (probe_terminated hbytes (by decide : 0 ∉ ascii "SERGEJ")) ?_
  refine check_eq (probe_terminated hbytes (by decide : 0 ∉ ascii "KASAN")) ?_
  exact check_eq (strncmp_terminated hbytes (by decide : 0 ∉ ascii "RedQueen")) rfl

/-! ## 2. The verdict -/

namespace TargetLemmas

/-- No input starts with two of the words. -/
theorem not_both {word word' : Bytes} (h : ¬word <+: word' ∧ ¬word' <+: word) {input : Bytes}
    (hword : word <+: input) : ¬word' <+: input := fun hword' =>
  (List.prefix_or_prefix_of_prefix hword hword').elim h.1 h.2

theorem verdict_panic_iff (input : Bytes) :
    (∃ bug, verdict input = .error (.panic bug)) ↔
      ascii "KERNELAFL" <+: input ∨ ascii "SERGEJ" <+: input := by
  unfold verdict
  split_ifs with h1 h2 h3 h4 <;> simp [*]

theorem verdict_oops_iff (input : Bytes) :
    (∃ bug, verdict input = .error (.oops bug)) ↔
      ascii "KASAN" <+: input ∨ ascii "RedQueen" <+: input := by
  unfold verdict
  split_ifs with h1 h2 h3 h4
  · have hkasan := not_both (by decide : _ ∧ ¬ascii "KASAN" <+: _) h1
    have hred := not_both (by decide : _ ∧ ¬ascii "RedQueen" <+: _) h1
    simp [hkasan, hred]
  · have hkasan := not_both (by decide : _ ∧ ¬ascii "KASAN" <+: _) h2
    have hred := not_both (by decide : _ ∧ ¬ascii "RedQueen" <+: _) h2
    simp [hkasan, hred]
  all_goals simp [*]

/-- There is no other way to end. -/
theorem verdict_ok_iff (input : Bytes) :
    verdict input = .ok input.length ↔
      ¬(∃ bug, verdict input = .error (.panic bug)) ∧
        ¬∃ bug, verdict input = .error (.oops bug) := by
  unfold verdict
  split_ifs <;> simp

end TargetLemmas

/-- The target panics exactly if the first 31 bytes of the input start with one of two words,
oopses exactly if they start with one of two others, and else returns their number. A run on
the same bytes, with anything else on the stack, ends in the same way. -/
theorem targetEntry_verdict (stack : LocalArray INPUT_LENGTH) (mem : Mem) (buf len : Nat) :
    let input := mem.load buf (min len 31)
    let result := targetEntry stack mem buf len
    ((∃ bug, result = .error (.panic bug)) ↔
        ascii "KERNELAFL" <+: input ∨ ascii "SERGEJ" <+: input) ∧
      ((∃ bug, result = .error (.oops bug)) ↔
        ascii "KASAN" <+: input ∨ ascii "RedQueen" <+: input) ∧
      (result = .ok (min len 31) ↔
        ¬(ascii "KERNELAFL" <+: input ∨ ascii "SERGEJ" <+: input) ∧
          ¬(ascii "KASAN" <+: input ∨ ascii "RedQueen" <+: input)) ∧
      ∀ (stack' : LocalArray INPUT_LENGTH) (mem' : Mem) (buf' len' : Nat),
        mem'.load buf' (min len' 31) = input → targetEntry stack' mem' buf' len' = result := by
  have hlength : (mem.load buf (min len 31)).length = min len 31 := Mem.load_length
  dsimp only
  rw [targetEntry_eq, ← verdict_panic_iff, ← verdict_oops_iff]
  refine ⟨Iff.rfl, Iff.rfl, ?_, fun stack' mem' buf' len' hsame => ?_⟩
  · have hok := verdict_ok_iff (mem.load buf (min len 31))
    rwa [hlength] at hok
  · rw [targetEntry_eq, hsame]

/-! ## 3. Runs of the agent -/

theorem callTarget_leftovers (stack stack' : World → LocalArray INPUT_LENGTH) :
    callTarget stack = callTarget stack' := by
  funext buf size
  unfold callTarget
  congr 1
  funext w
  rw [targetEntry_eq, targetEntry_eq]

/-- Whatever is on the stack before each call of the target, the agent runs the same. -/
theorem agentRun_leftovers (fuel : Nat) (targetInit : Guest Unit)
    (stack stack' : World → LocalArray INPUT_LENGTH) (bssBuffer : Nat) :
    agentRun fuel targetInit (callTarget stack) bssBuffer =
      agentRun fuel targetInit (callTarget stack') bssBuffer :=
  congrArg (fun entry => agentRun fuel targetInit entry bssBuffer)
    (callTarget_leftovers stack stack')

end KaflTargets.Zephyr
