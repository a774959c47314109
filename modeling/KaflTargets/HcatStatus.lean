import KaflTargets.Invocation

/-!
# The exit status of `hcat`

`cmd_hcat` adds what `hprintf_from_file` returns to an unsigned counter, the -1
of a failed stream included. It returns the counter itself when a file cannot
be opened, and whether the counter is 0 otherwise.

Results:
1. `hcatValue_eq`: the value returned, in terms of the bytes sent and the
   streams that failed.
2. `truthful_iff`, `cmdHcat_truthful_iff`: when the status tells success from
   failure.
-/

namespace KaflTargets

open CString

/-! ## Definitions -/

/-- Reading the stream to its end fails. -/
def FILE.fails (f : FILE) : Bool := !f.eof && (f.error || f.failing)

/-- The bytes up to the end of the stream. -/
def FILE.bytes (f : FILE) : Nat := if f.eof then 0 else f.data.length

/-- No stream is missing. -/
def allOpened (streams : List (Option FILE)) : Bool := streams.all Option.isSome

/-- The streams that `hcat` reads: those before the first that cannot be
opened. -/
def opened : List (Option FILE) → List FILE
  | some f :: streams => f :: opened streams
  | _ => []

/-- The bytes of the streams that do not fail. -/
def bytesSent (fs : List FILE) : Nat := ((fs.filter fun f => !f.fails).map FILE.bytes).sum

/-- The streams that fail. -/
def failures (fs : List FILE) : Nat := fs.countP FILE.fails

/-- Every stream was opened and sent without an error, and there was a byte to
send. -/
def AllSent (streams : List (Option FILE)) : Prop :=
  allOpened streams ∧ failures (opened streams) = 0 ∧ 0 < bytesSent (opened streams)

/-- A return value of 0 means that everything was sent, and otherwise the parent
sees a failure. -/
def Truthful (streams : List (Option FILE)) (ret : Int) : Prop :=
  (ret = 0 ↔ AllSent streams) ∧ (¬AllSent streams → exitStatus ret ≠ 0)

/-- The counter shows what happened. Where a file cannot be opened, its last
byte must not be 0; where none of the streams fails, the bytes must not add up
to a multiple of `2 ^ 64`; where one fails, the counter must be 0. -/
structure Shows (streams : List (Option FILE)) : Prop where
  missing : ¬allOpened streams →
    bytesSent (opened streams) % 256 ≠ failures (opened streams) % 256
  sent : allOpened streams → failures (opened streams) = 0 →
    bytesSent (opened streams) = 0 ∨ bytesSent (opened streams) % 2 ^ 64 ≠ 0
  failed : allOpened streams → failures (opened streams) ≠ 0 →
    bytesSent (opened streams) % 2 ^ 64 = failures (opened streams) % 2 ^ 64

/-! ## 1. The value returned -/

namespace HcatLemmas

theorem count_eq (f : FILE) : f.count = if f.fails then -1 else (f.bytes : Int) := by
  cases heof : f.eof <;> simp [FILE.count, FILE.fails, FILE.bytes, heof]

/-- The counter is the bytes sent less one for each failed stream. -/
theorem sum_counts (fs : List FILE) :
    (fs.map FILE.count).sum = (bytesSent fs : Int) - failures fs := by
  induction fs with
  | nil => rfl
  | cons f fs ih =>
    rw [List.map_cons, List.sum_cons, ih, count_eq]
    cases hf : f.fails with
    | true =>
      simp only [bytesSent, failures, hf, List.countP_cons_of_pos, if_true, Bool.not_true,
        Bool.false_eq_true, not_false_eq_true, List.filter_cons_of_neg]
      omega
    | false =>
      simp only [bytesSent, failures, hf, List.countP_cons_of_neg, Bool.false_eq_true, if_false,
        Bool.not_false, List.filter_cons_of_pos, List.map_cons, List.sum_cons, not_false_eq_true]
      omega

theorem sizeAdd_lt (written : Nat) (n : Int) : sizeAdd written n < 2 ^ 64 := by
  unfold sizeAdd
  omega

theorem sizeAdd_sizeAdd (written : Nat) (m n : Int) :
    sizeAdd (sizeAdd written m) n = sizeAdd written (m + n) := by
  unfold sizeAdd
  omega

theorem sizeAdd_zero {written : Nat} (h : written < 2 ^ 64) : sizeAdd written 0 = written := by
  unfold sizeAdd
  omega

end HcatLemmas

open HcatLemmas

/-- `cmd_hcat` returns the counter if a file cannot be opened, and whether it is
0 otherwise. -/
theorem hcatValue_eq : ∀ (streams : List (Option FILE)) {written : Nat}, written < 2 ^ 64 →
    hcatValue streams written =
      if allOpened streams then
        if sizeAdd written ((opened streams).map FILE.count).sum > 0 then 0 else 1
      else toInt (sizeAdd written ((opened streams).map FILE.count).sum)
  | [], written, h => by
    simp [hcatValue, allOpened, opened, sizeAdd_zero h]
  | none :: streams, written, h => by
    simp [hcatValue, allOpened, opened, sizeAdd_zero h]
  | some f :: streams, written, _ => by
    have hopened : allOpened (some f :: streams) = allOpened streams := by simp [allOpened]
    rw [hcatValue, hcatValue_eq streams (sizeAdd_lt written f.count), hopened, opened,
      List.map_cons, List.sum_cons, sizeAdd_sizeAdd]

/-! ## 2. When the status is truthful -/

theorem exitStatus_toInt (n : Nat) : exitStatus (toInt n) = n % 256 := by
  rw [exitStatus, InvocationLemmas.toInt_eq]
  split <;> omega

/-- The status is truthful exactly if the counter shows what happened. -/
theorem truthful_iff (streams : List (Option FILE)) :
    Truthful streams (hcatValue streams 0) ↔ Shows streams := by
  have hvalue := @hcatValue_eq streams 0 (by decide)
  rw [sum_counts] at hvalue
  have hshows : Shows streams ↔
      (¬allOpened streams → bytesSent (opened streams) % 256 ≠ failures (opened streams) % 256) ∧
      (allOpened streams → failures (opened streams) = 0 →
        bytesSent (opened streams) = 0 ∨ bytesSent (opened streams) % 2 ^ 64 ≠ 0) ∧
      (allOpened streams → failures (opened streams) ≠ 0 →
        bytesSent (opened streams) % 2 ^ 64 = failures (opened streams) % 2 ^ 64) :=
    ⟨fun h => ⟨h.missing, h.sent, h.failed⟩, fun h => ⟨h.1, h.2.1, h.2.2⟩⟩
  rw [hshows, Truthful, AllSent]
  generalize bytesSent (opened streams) = sent at *
  generalize failures (opened streams) = failed at *
  obtain ⟨counter, hcounter⟩ : ∃ n, n = sizeAdd 0 ((sent : Int) - failed) := ⟨_, rfl⟩
  rw [← hcounter] at hvalue
  unfold sizeAdd at hcounter
  cases hopened : allOpened streams with
  | false =>
    rw [hopened, if_neg (by decide)] at hvalue
    have hstatus := exitStatus_toInt counter
    rw [hvalue, hstatus]
    have hzero : toInt counter = 0 → counter % 256 = 0 := by
      intro h
      rw [← hstatus, h]
      rfl
    simp only [Bool.false_eq_true, false_and, iff_false, not_false_eq_true, forall_const,
      false_implies, and_true]
    constructor
    · rintro ⟨-, hne⟩
      omega
    · intro hne
      exact ⟨fun h => by have := hzero h; omega, by omega⟩
  | true =>
    rw [hopened, if_pos rfl] at hvalue
    rw [hvalue]
    simp only [true_and, not_true_eq_false, false_implies, forall_const]
    by_cases hpos : counter > 0
    · have hstatus : exitStatus 0 = 0 := rfl
      rw [if_pos hpos, hstatus]
      omega
    · have hstatus : exitStatus 1 = 1 := rfl
      rw [if_neg hpos, hstatus]
      omega

/-- `cmd_hcat` ends for every standard input and every list of files, and its
status is truthful exactly if its counter shows what happened. -/
theorem cmdHcat_truthful_iff {w : World} (hcpu : w.nyxCpuType ≠ .nyxCpuInvalid)
    (argv : List Bytes) :
    ∃ bound, ∀ fuel ≥ bound, ∃ ret w', (cmdHcat fuel argv).run w = (.ok ret, w') ∧
      (Truthful (w.streams (argv.drop w.optind)) ret ↔
        Shows (w.streams (argv.drop w.optind))) := by
  obtain ⟨bound, hrun⟩ := cmdHcat_run hcpu argv
  refine ⟨bound, fun fuel hfuel => ?_⟩
  obtain ⟨w', hrun⟩ := hrun fuel hfuel
  exact ⟨_, w', hrun, truthful_iff _⟩

/-- One file of two bytes. -/
theorem cmdHcat_truthful_two :
    ∃ bound, ∀ fuel ≥ bound, ∃ ret w',
      (cmdHcat fuel [ascii "hcat", ascii "/a"]).run (oneFileWorld (ascii "/a") [1, 2]) =
        (.ok ret, w') ∧
      (Truthful [some { data := [1, 2] }] ret ↔ Shows [some { data := [1, 2] }]) :=
  @cmdHcat_truthful_iff (oneFileWorld (ascii "/a") [1, 2]) (by decide) [ascii "hcat", ascii "/a"]

/-- The status is 0 for a file that does not exist, and for a standard input
that cannot be read if two bytes follow it. -/
theorem cmdHcat_hides_errors :
    (((cmdHcat 4 [ascii "hcat", ascii "/b"]).run (oneFileWorld (ascii "/a") [1, 2])).1 = .ok 0 ∧
      allOpened ((oneFileWorld (ascii "/a") [1, 2]).streams [ascii "/b"]) = false) ∧
    ((cmdHcat 4 [ascii "hcat", ascii "/a"]).run
        { oneFileWorld (ascii "/a") [1, 2] with
          env := { Env.plain with
            stdin := { data := [], failing := true }
            isatty := false } }).1 = .ok 0 ∧
      failures (opened ({ oneFileWorld (ascii "/a") [1, 2] with
        env := { Env.plain with
          stdin := { data := [], failing := true }
          isatty := false } }.streams [ascii "/a"])) = 1 := by
  decide +kernel

end KaflTargets
