import KaflTargets.DetectRanges
import KaflTargets.Invocation

/-!
# The region ids of the fork server

The filter has four regions, and `vmcall hrange` rejects an id above 3.
`detectranges` numbers the ranges it finds without a bound.

Results:
1. `numbered_slots_iff`: four ranges can be numbered.
2. `detectranges_slots_iff`: the ids of a maps file are ids of the filter
   exactly if at most four ranges are found in it.
-/

namespace KaflTargets.ForkServer

open CString

/-- Ids of regions of the filter, each of them used once. -/
def RegionSlots (ids : List Nat) : Prop := (∀ id ∈ ids, id ≤ 3) ∧ ids.Nodup

/-- The id of a submitted range. -/
def regionId (r : Nat × Nat × Nat) : Nat := r.2.2

/-! ## 1. Numbering -/

/-- As long as the counter does not wrap, the ids count from 0. -/
theorem numbered_ids {rs : List (Nat × Nat)} (h : rs.length < 2 ^ 32) :
    (numbered 0 rs).map regionId = List.range rs.length := by
  rw [DetectLemmas.numbered_eq_mapIdx 0 rs (by omega)]
  refine List.ext_getElem (by simp) fun i hi hi' => ?_
  simp [regionId]

theorem numbered_slots_iff (rs : List (Nat × Nat)) :
    RegionSlots ((numbered 0 rs).map regionId) ↔ rs.length ≤ 4 := by
  constructor
  · rintro ⟨hle, -⟩
    rcases rs with _ | ⟨r0, _ | ⟨r1, _ | ⟨r2, _ | ⟨r3, _ | ⟨r4, rs⟩⟩⟩⟩⟩
    case cons.cons.cons.cons.cons =>
      have hfour : 4 ∈ (numbered 0 (r0 :: r1 :: r2 :: r3 :: r4 :: rs)).map regionId := by
        simp [numbered, regionId]
      exact absurd (hle 4 hfour) (by decide)
    all_goals
      simp only [List.length_cons, List.length_nil]
      omega
  · intro hlen
    rw [numbered_ids (by omega)]
    refine ⟨fun id hid => ?_, List.nodup_range⟩
    have hlt := List.mem_range.mp hid
    omega

/-! ## 2. The ids of a maps file -/

theorem fopen_stream {w : World} {path : Bytes} {fp : FILE} (h : w.stream 0 path = some fp) :
    (fopen path).run w = (.ok (some fp), w.called) := by
  simp only [World.stream, Nat.add_zero] at h
  cases hopen : w.env.openErr w.lookups path with
  | some e => simp [hopen] at h
  | none =>
    cases hfile : w.files (w.resolve path) with
    | none => simp [hopen, hfile] at h
    | some file =>
      rw [hopen, hfile] at h
      cases herr : w.env.streamErr w.lookups path with
      | none =>
        simp only [herr, Option.some.injEq] at h
        simp [fopen, hopen, hfile, herr, h]
      | some n =>
        simp only [herr, Option.some.injEq] at h
        simp [fopen, hopen, hfile, herr, h]

/-- For every content of the maps file and every pattern, the ids that
`detectranges` submits are distinct ids of the filter exactly if it finds at
most four ranges. -/
theorem detectranges_slots_iff {w : World} {mapfile : Bytes} {fp : FILE} {fuel : Nat}
    (pattern : Bytes) (hcpu : w.nyxCpuType ≠ .nyxCpuInvalid)
    (hopen : w.stream 0 mapfile = some fp) (hfuel : fp.data.length < fuel) :
    ∃ ret w' new, (detectranges fuel mapfile pattern).run w = (.ok ret, w') ∧
      submitted w'.trace = submitted w.trace ++ new ∧
      (RegionSlots (new.map regionId) ↔ (matchedRanges pattern fp).length ≤ 4) := by
  have hlines : (readLines fp.data.length fp).length < fuel :=
    Nat.lt_of_le_of_lt (DetectLemmas.readLines_length _ _) hfuel
  obtain ⟨w', hrun, htrace⟩ := detectranges_stream pattern hcpu (fopen_stream hopen) hlines
  exact ⟨_, w', _, hrun, htrace, numbered_slots_iff _⟩

/-- One mapping. -/
theorem detectranges_slots_one :
    ∃ ret w' new, (detectranges 100 (ascii "/m") (ascii "bison")).run
        (mapsWorld (bisonLine (ascii "08") decMajor)) = (.ok ret, w') ∧
      submitted w'.trace = [] ++ new ∧
      (RegionSlots (new.map regionId) ↔
        (matchedRanges (ascii "bison")
          { data := [bisonLine (ascii "08") decMajor].flatMap MapsLine.render }).length ≤ 4) :=
  detectranges_slots_iff (ascii "bison") (by decide) rfl (by decide +kernel)

/-- Five mappings: the last one gets an id that no region of the filter has. -/
theorem detectranges_fifth_region :
    (0x1000, 0x2000, 4) ∈ submitted ((detectranges 6 (ascii "/m") (ascii "bison")).run
      { freshNyxWorld with
        files := fun _ => some ⟨(List.replicate 5
          (bisonLine (ascii "08") decMajor).render).flatten, 0⟩ }).2.trace := by
  decide +kernel

end KaflTargets.ForkServer
