import BootEntropy.RawDump.Reboots

/-!
# A dataset that is resumed

Whatever becomes of each capture and wherever the script is interrupted, starting it
again with `--resume` captures the slices in order, leaves a full slice as it is, and
writes a manifest only over the full slices. An interruption may leave the manifest torn.
-/

namespace BootEntropy.RawDump.Reboots

open BootEntropy.Lib

set_option autoImplicit false

/-! ## What a dataset holds -/

def Attempt.Full (plan : Plan) (attempt : Attempt) : Prop :=
  ∃ file, attempt.left = some file ∧ file.length = plan.bytesPerRun

def Dataset.Complete (plan : Plan) (dataset : Dataset) (index : Nat) : Prop :=
  dataset.size (plan.slicePath index) = plan.bytesPerRun

instance (plan : Plan) (dataset : Dataset) (index : Nat) : Decidable (dataset.Complete plan index) :=
  inferInstanceAs (Decidable (_ = _))

def Plan.indices (plan : Plan) : List Nat := List.range' 1 plan.runs

def ManifestRun.facts (entry : ManifestRun) : Nat × Text × Text × Nat × Text :=
  (entry.run, entry.status, entry.path, entry.bytes, entry.sha256)

section Holds

variable (sha256 : Bytes → Text) (plan : Plan)

def Dataset.facts (dataset : Dataset) (index : Nat) : Nat × Text × Text × Nat × Text :=
  (index, "captured".toList, plan.slicePath index, plan.bytesPerRun,
    sha256 (dataset.contents (plan.slicePath index)))

def Dataset.whole (dataset : Dataset) : Bytes :=
  plan.indices.flatMap fun index => dataset.contents (plan.slicePath index)

/-- The manifest is that of the full slices and of their concatenation. -/
structure Describes (dataset : Dataset) (manifest : Manifest) : Prop where
  complete : ∀ index ∈ plan.indices, dataset.Complete plan index
  requested : manifest.runsRequested = plan.runs
  captured : manifest.runsCaptured = plan.runs
  bytesPerRun : manifest.bytesPerRun = plan.bytesPerRun
  runs : manifest.runs.map ManifestRun.facts = plan.indices.map (dataset.facts sha256 plan)
  path : manifest.aggregatePath = concatPath (plan.bytesPerRun * plan.runs)
  aggregate : dataset.files manifest.aggregatePath = some (dataset.whole plan)
  bytes : manifest.aggregateBytes = plan.bytesPerRun * plan.runs
  fileBytes : manifest.aggregateFileBytes = plan.bytesPerRun * plan.runs
  digest : manifest.aggregateSha256 = sha256 (dataset.whole plan)

/-- Captures go up in order and none follows a full one of the same slice. A full slice
is as it was left, and a slice that is there was left by a capture. A slice is captured
only once those in front of it are full. -/
structure Resumable (dataset : Dataset) : Prop where
  once : dataset.log.Pairwise fun earlier later =>
    earlier.1 ≤ later.1 ∧ (earlier.2.Full plan → earlier.1 ≠ later.1)
  stored : ∀ entry ∈ dataset.log, ∀ file, entry.2.left = some file →
    file.length = plan.bytesPerRun → dataset.files (plan.slicePath entry.1) = some file
  captured : ∀ index file, dataset.files (plan.slicePath index) = some file →
    ∃ entry ∈ dataset.log, entry.1 = index ∧ entry.2.left = some file
  ahead : ∀ entry ∈ dataset.log, ∀ index, 1 ≤ index → index < entry.1 →
    dataset.Complete plan index
  torn : dataset.manifest = .torn → ∀ index ∈ plan.indices, dataset.Complete plan index
  manifest : ∀ manifest, dataset.manifest = .whole manifest →
    Describes sha256 plan dataset manifest

end Holds

section Slices

variable {sha256 : Bytes → Text} {plan : Plan} {dataset : Dataset}

theorem complete_file {index : Nat} (complete : dataset.Complete plan index) :
    ∃ file, dataset.files (plan.slicePath index) = some file ∧ file.length = plan.bytesPerRun := by
  have positive := plan.bytesPositive
  rw [Dataset.Complete, Dataset.size] at complete
  cases held : dataset.files (plan.slicePath index) with
  | none =>
      rw [held] at complete
      simp at complete
      omega
  | some file =>
      rw [held] at complete
      exact ⟨file, rfl, complete⟩

theorem complete_of_file {index : Nat} {file : Bytes}
    (held : dataset.files (plan.slicePath index) = some file)
    (length : file.length = plan.bytesPerRun) : dataset.Complete plan index := by
  rw [Dataset.Complete, Dataset.size, held]
  exact length

/-- The invocation comes to the slice, and the slice is full or the invocation fills it. -/
def Invocation.Fills (plan : Plan) (invocation : Invocation) (dataset : Dataset) (index : Nat) :
    Prop :=
  invocation.interrupted ≠ some (.run index) ∧
    (dataset.Complete plan index ∨
      (invocation.attempts index).status = some 0 ∧ (invocation.attempts index).Full plan)

/-- No interruption behind the last run. -/
def Invocation.Finishes (invocation : Invocation) : Prop :=
  ∀ interruption, invocation.interrupted = some interruption → ∃ index, interruption = .run index

/-! ## One capture -/

theorem capture_one_log (index : Nat) (attempt : Attempt) :
    (dataset.captureOne plan index attempt).log = dataset.log ++ [(index, attempt)] := by
  unfold Dataset.captureOne
  cases attempt.left with
  | none => rfl
  | some file => rfl

theorem capture_one_manifest (index : Nat) (attempt : Attempt) :
    (dataset.captureOne plan index attempt).manifest = dataset.manifest := by
  unfold Dataset.captureOne
  cases attempt.left with
  | none => rfl
  | some file => rfl

theorem capture_one_same (index : Nat) (attempt : Attempt) :
    (dataset.captureOne plan index attempt).files (plan.slicePath index) =
      attempt.left.or (dataset.files (plan.slicePath index)) := by
  unfold Dataset.captureOne
  cases attempt.left with
  | none => rfl
  | some file => exact Function.update_self _ _ _

theorem capture_one_other {index other : Nat} (different : other ≠ index) (attempt : Attempt) :
    (dataset.captureOne plan index attempt).files (plan.slicePath other) =
      dataset.files (plan.slicePath other) := by
  unfold Dataset.captureOne
  cases attempt.left with
  | none => rfl
  | some file =>
      apply Function.update_of_ne
      intro same
      exact different (slice_path_injective plan same)

theorem Resumable.captureOne {index : Nat} (resumable : Resumable sha256 plan dataset)
    (member : index ∈ plan.indices) (missing : ¬dataset.Complete plan index)
    (front : ∀ other, 1 ≤ other → other < index → dataset.Complete plan other)
    (attempt : Attempt) : Resumable sha256 plan (dataset.captureOne plan index attempt) := by
  have unfilled : ∀ entry ∈ dataset.log, entry.2.Full plan → entry.1 ≠ index := by
    rintro entry inside ⟨file, left, length⟩ rfl
    exact missing (complete_of_file (resumable.stored entry inside file left length) length)
  have kept {other : Nat} (complete : dataset.Complete plan other) :
      (dataset.captureOne plan index attempt).Complete plan other := by
    have different : other ≠ index := by
      rintro rfl
      exact missing complete
    rw [Dataset.Complete, Dataset.size, capture_one_other different]
    exact complete
  constructor
  · rw [capture_one_log, List.pairwise_append]
    refine ⟨resumable.once, List.pairwise_singleton _ _, ?_⟩
    intro entry inside last new
    rw [List.mem_singleton.mp new]
    refine ⟨?_, unfilled entry inside⟩
    by_contra behind
    exact missing (resumable.ahead entry inside index (List.mem_range'_1.mp member).1 (by omega))
  · intro entry inside file left length
    rw [capture_one_log, List.mem_append, List.mem_singleton] at inside
    rcases inside with old | rfl
    · rw [capture_one_other (unfilled entry old ⟨file, left, length⟩)]
      exact resumable.stored entry old file left length
    · rw [capture_one_same, left, Option.some_or]
  · intro other file held
    rw [capture_one_log]
    by_cases same : other = index
    · rw [same, capture_one_same] at held
      cases left : attempt.left with
      | none =>
          rw [left, Option.none_or] at held
          obtain ⟨entry, inside, rest⟩ := resumable.captured index file held
          exact ⟨entry, List.mem_append_left _ inside, same ▸ rest⟩
      | some own =>
          rw [left, Option.some_or] at held
          exact ⟨(index, attempt), by simp, same.symm, left.trans held⟩
    · rw [capture_one_other same] at held
      obtain ⟨entry, inside, rest⟩ := resumable.captured other file held
      exact ⟨entry, List.mem_append_left _ inside, rest⟩
  · intro entry inside other positive below
    rw [capture_one_log, List.mem_append, List.mem_singleton] at inside
    rcases inside with old | rfl
    · exact kept (resumable.ahead entry old other positive below)
    · exact kept (front other positive below)
  · intro torn
    rw [capture_one_manifest] at torn
    exact absurd (resumable.torn torn index member) missing
  · intro manifest written
    rw [capture_one_manifest] at written
    exact absurd ((resumable.manifest manifest written).complete index member) missing

/-! ## The loop -/

/-- The loop ahead of slice `start`. -/
structure Looped (sha256 : Bytes → Text) (plan : Plan) (start : Nat) (collection : Collection) :
    Prop where
  resumable : Resumable sha256 plan collection.dataset
  complete : ∀ index ∈ List.range' 1 (start - 1), collection.dataset.Complete plan index
  captured : collection.captured = (List.range' 1 (start - 1)).map plan.slicePath
  runs : collection.runs.map ManifestRun.facts =
    (List.range' 1 (start - 1)).map (collection.dataset.facts sha256 plan)

theorem range_snoc {start : Nat} (positive : 1 ≤ start) :
    List.range' 1 (start + 1 - 1) = List.range' 1 (start - 1) ++ [start] := by
  have next : start + 1 - 1 = (start - 1) + 1 := by omega
  have last : 1 + 1 * (start - 1) = start := by omega
  rw [next, List.range'_concat, last]

theorem Looped.note {start : Nat} {collection : Collection}
    (looped : Looped sha256 plan start collection) (positive : 1 ≤ start)
    (complete : collection.dataset.Complete plan start) (reused : Bool) :
    ∃ after, collection.note sha256 plan start reused = .go after ∧
      after.dataset = collection.dataset ∧ Looped sha256 plan (start + 1) after := by
  have size : collection.dataset.size (plan.slicePath start) = plan.bytesPerRun := complete
  have noted : collection.note sha256 plan start reused = .go { collection with
      captured := collection.captured ++ [plan.slicePath start]
      runs := collection.runs ++ [⟨start, "captured".toList, plan.slicePath start,
        collection.dataset.size (plan.slicePath start),
        sha256 (collection.dataset.contents (plan.slicePath start)), reused⟩] } := by
    rw [Collection.note, if_neg (not_not.mpr size)]
  refine ⟨_, noted, rfl, looped.resumable, ?_, ?_, ?_⟩
  · intro index member
    rw [range_snoc positive, List.mem_append, List.mem_singleton] at member
    rcases member with earlier | rfl
    · exact looped.complete index earlier
    · exact complete
  · rw [range_snoc positive, List.map_append, looped.captured]
    rfl
  · rw [range_snoc positive, List.map_append, List.map_append, looped.runs, List.map_singleton,
      List.map_singleton, ManifestRun.facts, Dataset.facts, size]

theorem Looped.captureOne {start : Nat} {collection : Collection}
    (looped : Looped sha256 plan start collection) (member : start ∈ plan.indices)
    (missing : ¬collection.dataset.Complete plan start) (attempt : Attempt) :
    Looped sha256 plan start
      { collection with dataset := collection.dataset.captureOne plan start attempt } := by
  have front : ∀ other, 1 ≤ other → other < start → collection.dataset.Complete plan other := by
    intro other positive below
    exact looped.complete other (List.mem_range'_1.mpr ⟨positive, by omega⟩)
  have same : ∀ other ∈ List.range' 1 (start - 1),
      (collection.dataset.captureOne plan start attempt).files (plan.slicePath other) =
        collection.dataset.files (plan.slicePath other) := by
    intro other inside
    have bounds := List.mem_range'_1.mp inside
    exact capture_one_other (by omega) attempt
  refine ⟨looped.resumable.captureOne member missing front attempt, ?_, looped.captured, ?_⟩
  · intro other inside
    rw [Dataset.Complete, Dataset.size, same other inside]
    exact looped.complete other inside
  · rw [looped.runs]
    apply List.map_congr_left
    intro other inside
    rw [Dataset.facts, Dataset.facts, Dataset.contents, Dataset.contents, same other inside]

theorem note_short {collection : Collection} {index : Nat}
    (missing : ¬collection.dataset.Complete plan index) (reused : Bool) :
    ∃ failure, collection.note sha256 plan index reused = .stop collection failure := by
  have size : collection.dataset.size (plan.slicePath index) ≠ plan.bytesPerRun := missing
  rw [Collection.note, if_pos size]
  exact ⟨_, rfl⟩

theorem capture_one_complete {index : Nat} (missing : ¬dataset.Complete plan index)
    (attempt : Attempt) :
    (dataset.captureOne plan index attempt).Complete plan index ↔ attempt.Full plan := by
  rw [Dataset.Complete, Dataset.size, capture_one_same, Attempt.Full]
  cases attempt.left with
  | none =>
      rw [Option.none_or]
      exact iff_of_false missing (by simp)
  | some file => simp

/-- One turn of the loop of a resumed script goes on exactly with a full slice. -/
theorem capture_run_cases {invocation : Invocation} (resume : invocation.resume = true)
    {start : Nat} {collection : Collection} (looped : Looped sha256 plan start collection)
    (member : start ∈ plan.indices) :
    (invocation.Fills plan collection.dataset start ∧ ∃ after,
      captureRun sha256 plan invocation collection start = .go after ∧
      Looped sha256 plan (start + 1) after ∧
      ∀ other, other ≠ start → after.dataset.files (plan.slicePath other) =
        collection.dataset.files (plan.slicePath other)) ∨
    (¬invocation.Fills plan collection.dataset start ∧ ∃ after failure,
      captureRun sha256 plan invocation collection start = .stop after failure ∧
      Resumable sha256 plan after.dataset) := by
  have positive : 1 ≤ start := (List.mem_range'_1.mp member).1
  by_cases cut : invocation.interrupted = some (.run start)
  · right
    refine ⟨fun fills => fills.1 cut, collection, .interrupted, ?_, looped.resumable⟩
    rw [captureRun, if_pos cut]
  rw [Invocation.Fills, and_iff_right cut]
  by_cases complete : collection.dataset.Complete plan start
  · left
    obtain ⟨file, held, _⟩ := complete_file complete
    have reuse : invocation.resume = true ∧
        (collection.dataset.files (plan.slicePath start)).isSome = true ∧
        collection.dataset.size (plan.slicePath start) = plan.bytesPerRun :=
      ⟨resume, by rw [held]; rfl, complete⟩
    obtain ⟨after, noted, dataset, kept⟩ := looped.note positive complete true
    refine ⟨Or.inl complete, after, ?_, kept, ?_⟩
    · rw [captureRun, if_neg cut, if_pos reuse, noted]
    · intro other _
      rw [dataset]
  · have captured := looped.captureOne member complete (invocation.attempts start)
    have full := capture_one_complete complete (invocation.attempts start)
    rw [captureRun, if_neg cut, if_neg fun reuse => complete reuse.2.2]
    dsimp only
    cases (invocation.attempts start).status with
    | none => exact Or.inr ⟨by simp [complete], _, _, rfl, captured.resumable⟩
    | some status =>
        by_cases failed : status ≠ 0
        · right
          dsimp only
          rw [if_pos failed]
          exact ⟨by simp [complete, failed], _, _, rfl, captured.resumable⟩
        · obtain rfl := not_not.mp failed
          dsimp only
          rw [if_neg failed]
          by_cases filled : (invocation.attempts start).Full plan
          · left
            obtain ⟨after, noted, dataset, kept⟩ := captured.note positive (full.mpr filled) false
            refine ⟨Or.inr ⟨rfl, filled⟩, after, noted, kept, ?_⟩
            intro other different
            rw [dataset]
            exact capture_one_other different _
          · right
            obtain ⟨failure, stopped⟩ := @note_short sha256 plan ⟨collection.dataset.captureOne plan
              start (invocation.attempts start), collection.runs, collection.captured⟩ start
              (fun complete => filled (full.mp complete)) false
            exact ⟨by simp [complete, filled], _, failure, stopped, captured.resumable⟩

theorem run_captures {invocation : Invocation} (resume : invocation.resume = true) (count : Nat) :
    ∀ {start : Nat} {collection : Collection}, Looped sha256 plan start collection →
      1 ≤ start → start + count = plan.runs + 1 →
      (((run (captureRun sha256 plan invocation) collection (List.range' start count)).2 = none ↔
        ∀ index ∈ List.range' start count, invocation.Fills plan collection.dataset index) ∧
      ((run (captureRun sha256 plan invocation) collection (List.range' start count)).2 = none →
        Looped sha256 plan (plan.runs + 1)
          (run (captureRun sha256 plan invocation) collection (List.range' start count)).1) ∧
      Resumable sha256 plan
        (run (captureRun sha256 plan invocation) collection
          (List.range' start count)).1.dataset) := by
  induction count with
  | zero =>
      intro start collection looped _ last
      rw [← last]
      refine ⟨iff_of_true rfl ?_, fun _ => looped, looped.resumable⟩
      intro index member
      cases member
  | succ count ih =>
      intro start collection looped positive last
      have member : start ∈ plan.indices := List.mem_range'_1.mpr ⟨positive, by omega⟩
      rw [List.range'_succ, run, List.forall_mem_cons]
      rcases capture_run_cases resume looped member with
        ⟨fills, after, taken, kept, same⟩ | ⟨empty, after, failure, taken, kept⟩
      · rw [taken]
        obtain ⟨ends, reached, resumable⟩ := ih kept (by omega) (by omega)
        refine ⟨?_, reached, resumable⟩
        rw [ends, and_iff_right fills]
        apply forall₂_congr
        intro index behind
        have different : index ≠ start := by
          have bounds := List.mem_range'_1.mp behind
          omega
        rw [Invocation.Fills, Invocation.Fills, Dataset.Complete, Dataset.Complete, Dataset.size,
          Dataset.size, same index different]
      · rw [taken]
        refine ⟨iff_of_false (by simp) (fun all => empty all.1), ?_, kept⟩
        intro running
        cases running

/-! ## One start of the script -/

theorem contents_length {index : Nat} (complete : dataset.Complete plan index) :
    (dataset.contents (plan.slicePath index)).length = plan.bytesPerRun := by
  obtain ⟨file, held, length⟩ := complete_file complete
  rw [Dataset.contents, held]
  exact length

theorem whole_length (complete : ∀ index ∈ plan.indices, dataset.Complete plan index) :
    (dataset.whole plan).length = plan.bytesPerRun * plan.runs := by
  have lengths : plan.indices.map (fun index =>
      (dataset.contents (plan.slicePath index)).length) =
        List.replicate plan.runs plan.bytesPerRun := by
    rw [List.eq_replicate_iff]
    constructor
    · rw [List.length_map, Plan.indices, List.length_range']
    · intro length member
      obtain ⟨index, inside, rfl⟩ := List.mem_map.mp member
      exact contents_length (complete index inside)
  rw [Dataset.whole, List.length_flatMap, lengths, List.sum_replicate_nat, Nat.mul_comm]

/-- The dataset has the same slices, and the same aggregate once they are full. -/
structure Aside (plan : Plan) (before after : Dataset) : Prop where
  slices : ∀ index, after.files (plan.slicePath index) = before.files (plan.slicePath index)
  log : after.log = before.log
  manifest : after.manifest = before.manifest
  aggregate : (∀ index ∈ plan.indices, before.Complete plan index) →
    before.files (concatPath (plan.bytesPerRun * plan.runs)) = some (before.whole plan) →
      after.files (concatPath (plan.bytesPerRun * plan.runs)) = some (before.whole plan)

section Aside

variable {before after : Dataset}

theorem Aside.complete (aside : Aside plan before after) (index : Nat) :
    after.Complete plan index ↔ before.Complete plan index := by
  rw [Dataset.Complete, Dataset.Complete, Dataset.size, Dataset.size, aside.slices]

theorem Aside.contents (aside : Aside plan before after) (index : Nat) :
    after.contents (plan.slicePath index) = before.contents (plan.slicePath index) := by
  rw [Dataset.contents, Dataset.contents, aside.slices]

theorem Aside.whole (aside : Aside plan before after) : after.whole plan = before.whole plan :=
  List.flatMap_congr fun index _ => aside.contents index

theorem Aside.facts (aside : Aside plan before after) :
    after.facts sha256 plan = before.facts sha256 plan := by
  funext index
  rw [Dataset.facts, Dataset.facts, aside.contents]

theorem Resumable.aside (resumable : Resumable sha256 plan before)
    (aside : Aside plan before after) : Resumable sha256 plan after := by
  constructor
  · rw [aside.log]
    exact resumable.once
  · rw [aside.log]
    intro entry inside file left length
    rw [aside.slices]
    exact resumable.stored entry inside file left length
  · rw [aside.log]
    intro index file there
    rw [aside.slices] at there
    exact resumable.captured index file there
  · rw [aside.log]
    intro entry inside index positive below
    rw [aside.complete]
    exact resumable.ahead entry inside index positive below
  · intro torn index member
    rw [aside.manifest] at torn
    rw [aside.complete]
    exact resumable.torn torn index member
  · intro manifest written
    rw [aside.manifest] at written
    have described := resumable.manifest manifest written
    refine ⟨?_, described.requested, described.captured, described.bytesPerRun, ?_,
      described.path, ?_, described.bytes, described.fileBytes, ?_⟩
    · intro index member
      rw [aside.complete]
      exact described.complete index member
    · rw [aside.facts]
      exact described.runs
    · have held := described.aggregate
      rw [described.path] at held ⊢
      rw [aside.whole]
      exact aside.aggregate described.complete held
    · rw [aside.whole]
      exact described.digest

end Aside

theorem Resumable.describe {file : ManifestFile} (resumable : Resumable sha256 plan dataset)
    (complete : ∀ index ∈ plan.indices, dataset.Complete plan index)
    (described : ∀ manifest, file = .whole manifest → Describes sha256 plan dataset manifest) :
    Resumable sha256 plan { dataset with manifest := file } := by
  refine ⟨resumable.once, resumable.stored, resumable.captured, resumable.ahead,
    fun _ => complete, ?_⟩
  intro manifest written
  have own := described manifest written
  exact ⟨own.complete, own.requested, own.captured, own.bytesPerRun, own.runs, own.path,
    own.aggregate, own.bytes, own.fileBytes, own.digest⟩

section Finish

variable {collection : Collection}

theorem Looped.total (looped : Looped sha256 plan (plan.runs + 1) collection) :
    collection.total plan = plan.bytesPerRun * plan.runs := by
  rw [Collection.total, looped.captured, List.length_map, List.length_range', Nat.add_sub_cancel]

theorem Looped.whole (looped : Looped sha256 plan (plan.runs + 1) collection) :
    collection.captured.flatMap collection.dataset.contents = collection.dataset.whole plan := by
  rw [looped.captured, List.flatMap_map]
  rfl

theorem Looped.copied (looped : Looped sha256 plan (plan.runs + 1) collection) (written : Nat) :
    Aside plan collection.dataset (collection.copied plan written) := by
  constructor
  · exact fun index => Function.update_of_ne (slice_path_ne_temp plan index _) _ _
  · rfl
  · rfl
  · intro _ held
    rw [← held, Collection.copied, looped.total]
    exact Function.update_of_ne (concat_temp_ne _).symm _ _

theorem Looped.aggregate (looped : Looped sha256 plan (plan.runs + 1) collection) :
    (collection.concatenated plan).files (concatPath (plan.bytesPerRun * plan.runs)) =
      some (collection.dataset.whole plan) := by
  rw [Collection.concatenated, Dataset.replace, looped.total, looped.whole]
  dsimp only
  rw [Function.update_of_ne (concat_temp_ne _).symm, Function.update_self]
  exact Function.update_self _ _ _

theorem Looped.concatenated (looped : Looped sha256 plan (plan.runs + 1) collection) :
    Aside plan collection.dataset (collection.concatenated plan) := by
  constructor
  · intro index
    rw [Collection.concatenated, Dataset.replace]
    dsimp only
    rw [Function.update_of_ne (slice_path_ne_temp plan index _),
      Function.update_of_ne (slice_path_ne_concat plan index _)]
    exact Function.update_of_ne (slice_path_ne_temp plan index _) _ _
  · rfl
  · rfl
  · exact fun _ _ => looped.aggregate

theorem Looped.described (looped : Looped sha256 plan (plan.runs + 1) collection) :
    Describes sha256 plan (collection.concatenated plan) (collection.manifest sha256 plan) := by
  have aside := looped.concatenated
  have filled : ∀ index ∈ plan.indices, collection.dataset.Complete plan index := looped.complete
  have count : collection.captured.length = plan.runs := by
    rw [looped.captured, List.length_map, List.length_range', Nat.add_sub_cancel]
  have written : (collection.concatenated plan).files (concatPath (collection.total plan)) =
      some (collection.dataset.whole plan) := by
    rw [looped.total]
    exact looped.aggregate
  constructor
  · intro index member
    rw [aside.complete]
    exact filled index member
  · rfl
  · exact count
  · rfl
  · rw [aside.facts]
    exact looped.runs
  · exact congrArg concatPath looped.total
  · rw [aside.whole]
    exact written
  · exact looped.total
  · show (collection.concatenated plan).size (concatPath (collection.total plan)) = _
    rw [Dataset.size, written, Option.map_some, Option.getD_some]
    exact whole_length filled
  · show sha256 ((collection.concatenated plan).contents (concatPath (collection.total plan))) = _
    rw [aside.whole, Dataset.contents, written, Option.getD_some]

/-- Wherever the script ends behind the last run, the dataset is in order. It ends with a
manifest exactly when it is not interrupted. -/
theorem Looped.finish (looped : Looped sha256 plan (plan.runs + 1) collection)
    (invocation : Invocation) :
    Resumable sha256 plan (finish sha256 plan invocation.interrupted collection).1 ∧
      ((∃ manifest, (finish sha256 plan invocation.interrupted collection).2 = .ok manifest ∧
        (finish sha256 plan invocation.interrupted collection).1.manifest = .whole manifest) ↔
          invocation.Finishes) := by
  have resumable := looped.resumable
  have aggregated : Resumable sha256 plan (collection.concatenated plan) :=
    resumable.aside looped.concatenated
  have described := looped.described
  have whole : Resumable sha256 plan { collection.concatenated plan with
      manifest := .whole (collection.manifest sha256 plan) } :=
    aggregated.describe described.complete fun manifest same =>
      ManifestFile.whole.inj same ▸ described
  have cut {interruption : Interruption} (own : invocation.interrupted = some interruption)
      (behind : ∀ index, interruption ≠ .run index) : ¬invocation.Finishes := by
    intro finishes
    obtain ⟨index, same⟩ := finishes interruption own
    exact behind index same
  cases own : invocation.interrupted with
  | none =>
      have finishes : invocation.Finishes := by
        intro interruption same
        rw [own] at same
        cases same
      exact ⟨whole, iff_of_true ⟨_, rfl, rfl⟩ finishes⟩
  | some interruption =>
      cases interruption with
      | run index =>
          have finishes : invocation.Finishes := by
            intro interruption same
            rw [own] at same
            exact ⟨index, (Option.some.inj same).symm⟩
          exact ⟨whole, iff_of_true ⟨_, rfl, rfl⟩ finishes⟩
      | collected => exact ⟨resumable, iff_of_false (by simp [Reboots.finish]) (cut own (by simp))⟩
      | copying written =>
          exact ⟨resumable.aside (looped.copied written),
            iff_of_false (by simp [Reboots.finish]) (cut own (by simp))⟩
      | replaced => exact ⟨aggregated, iff_of_false (by simp [Reboots.finish]) (cut own (by simp))⟩
      | describing =>
          exact ⟨aggregated.describe described.complete (fun _ same => nomatch same),
            iff_of_false (by simp [Reboots.finish]) (cut own (by simp))⟩
      | described => exact ⟨whole, iff_of_false (by simp [Reboots.finish]) (cut own (by simp))⟩

end Finish

/-- Another start of the script with `--resume`. -/
theorem Resumable.collect {invocation : Invocation} (resumable : Resumable sha256 plan dataset)
    (resume : invocation.resume = true) :
    Resumable sha256 plan (collect sha256 plan dataset invocation).1 ∧
      ((∃ manifest, (Reboots.collect sha256 plan dataset invocation).2 = .ok manifest ∧
        (Reboots.collect sha256 plan dataset invocation).1.manifest = .whole manifest) ↔
        invocation.built = true ∧
          (∀ index ∈ plan.indices, invocation.Fills plan dataset index) ∧
            invocation.Finishes) := by
  have start : Looped sha256 plan 1 ⟨dataset, [], []⟩ := by
    refine ⟨resumable, ?_, rfl, rfl⟩
    intro index member
    cases member
  obtain ⟨ends, reached, kept⟩ := run_captures resume plan.runs start le_rfl (Nat.add_comm _ _)
  rw [Reboots.collect]
  by_cases built : invocation.built = true
  · rw [if_neg (not_not.mpr built), and_iff_right built, Plan.indices, ← ends]
    rcases outcome : run (captureRun sha256 plan invocation) ⟨dataset, [], []⟩
      (List.range' 1 plan.runs) with ⟨collection, stopped⟩
    rw [outcome] at reached kept
    cases stopped with
    | none =>
        rw [and_iff_right rfl]
        exact (reached rfl).finish invocation
    | some failure => exact ⟨kept, iff_of_false (by simp) (by simp)⟩
  · rw [if_pos built]
    exact ⟨resumable, iff_of_false (by simp) (fun all => built all.1)⟩

theorem empty_resumable : Resumable sha256 plan emptyDataset :=
  ⟨List.Pairwise.nil, by simp [emptyDataset], by simp [emptyDataset], by simp [emptyDataset],
    by simp [emptyDataset], by simp [emptyDataset]⟩

theorem collect_all_resumable (invocations : List Invocation) :
    ∀ dataset, Resumable sha256 plan dataset →
      (∀ invocation ∈ invocations, invocation.resume = true) →
      Resumable sha256 plan (collectAll sha256 plan dataset invocations) := by
  induction invocations with
  | nil => exact fun _ resumable _ => resumable
  | cons invocation invocations ih =>
      intro dataset resumable resume
      rw [List.forall_mem_cons] at resume
      exact ih _ (resumable.collect resume.1).1 resume.2

end Slices

theorem plan_total {args : RebootArgs} {plan : Plan} (planned : Reboots.plan args = .ok plan)
    {total : Int} (asked : args.totalBytes = some total) :
    ((plan.bytesPerRun * plan.runs : Nat) : Int) = total := by
  unfold Reboots.plan deriveBytesPerRun at planned
  rw [asked] at planned
  split_ifs at planned with runs
  by_cases empty : total ≤ 0
  · simp [empty] at planned
  · have product {bytes : Int} (positive : 0 < bytes) (equal : bytes * args.runs = total) :
        ((bytes.toNat * args.runs.toNat : Nat) : Int) = total := by
      rw [Nat.cast_mul, Int.toNat_of_nonneg positive.le, Int.toNat_of_nonneg (by omega), equal]
    cases own : args.bytesPerRun with
    | some bytes =>
        by_cases differs : bytes * args.runs ≠ total
        · simp [empty, own, differs] at planned
        · simp only [empty, own, differs, if_false] at planned
          split_ifs at planned with missing
          obtain rfl := Except.ok.inj planned
          exact product (by omega) (not_not.mp differs)
    | none =>
        by_cases remainder : total.fmod args.runs ≠ 0
        · simp [empty, own, remainder] at planned
        · simp only [empty, own, remainder, if_false] at planned
          split_ifs at planned with missing
          obtain rfl := Except.ok.inj planned
          exact product (by omega) (Int.fdiv_mul_cancel_of_fmod_eq_zero (not_not.mp remainder))

/-- Whatever becomes of the captures and wherever the starts are interrupted, resumed
starts keep the dataset in order. A start ends with a manifest exactly when it fills what
is missing and is not interrupted. -/
theorem resumed_collection (sha256 : Bytes → Text) (args : RebootArgs) (plan : Plan)
    (planned : Reboots.plan args = .ok plan) (invocations : List Invocation) (last : Invocation)
    (resume : ∀ invocation ∈ invocations ++ [last], invocation.resume = true) :
    let before := collectAll sha256 plan emptyDataset invocations
    let after := collect sha256 plan before last
    Resumable sha256 plan after.1 ∧
      (∀ manifest total, after.1.manifest = .whole manifest → args.totalBytes = some total →
        (manifest.aggregateFileBytes : Int) = total) ∧
      ((∃ manifest, after.2 = .ok manifest ∧ after.1.manifest = .whole manifest) ↔
        last.built = true ∧ (∀ index ∈ plan.indices, last.Fills plan before index) ∧
          last.Finishes) := by
  have resumable : Resumable sha256 plan (collectAll sha256 plan emptyDataset invocations) :=
    collect_all_resumable invocations _ empty_resumable
      fun invocation member => resume invocation (List.mem_append_left _ member)
  obtain ⟨kept, ends⟩ := resumable.collect (resume last (by simp))
  refine ⟨kept, ?_, ends⟩
  intro manifest total written asked
  rw [(kept.manifest manifest written).fileBytes]
  exact plan_total planned asked

def twoByTwo : Plan := ⟨2, 2, Nat.two_pos, Nat.two_pos⟩

def cutCapture : Invocation :=
  ⟨true, true, fun index => if index = 1 then ⟨some [1, 2], some 0⟩ else ⟨some [3], some 1⟩, none⟩

/-- The second capture is made again, and the manifest is cut short. -/
def cutManifest : Invocation := ⟨true, true, fun _ => ⟨some [3, 4], some 0⟩, some .describing⟩

def lastStart : Invocation := ⟨true, true, fun _ => ⟨none, some 1⟩, none⟩

/-- Four bytes in two slices, of which only the third start leaves a manifest. -/
theorem resumed_collection_cut :
    let hash : Bytes → Text := List.map fun byte => Char.ofNat byte.toNat
    let before := collectAll hash twoByTwo emptyDataset [cutCapture, cutManifest]
    let after := collect hash twoByTwo before lastStart
    (collectAll hash twoByTwo emptyDataset [cutCapture]).size (twoByTwo.slicePath 2) = 1 ∧
      before.manifest = .torn ∧ Resumable hash twoByTwo after.1 ∧
      ∃ manifest, after.2 = .ok manifest ∧ after.1.manifest = .whole manifest := by
  intro hash before after
  have full : ∀ index ∈ twoByTwo.indices, before.Complete twoByTwo index := by
    decide +kernel
  obtain ⟨kept, _, ends⟩ := resumed_collection hash ⟨2, none, some 4⟩ twoByTwo rfl
    [cutCapture, cutManifest] lastStart (by simp [cutCapture, cutManifest, lastStart])
  have fills : ∀ index ∈ twoByTwo.indices, lastStart.Fills twoByTwo before index :=
    fun index member => ⟨by simp [lastStart], .inl (full index member)⟩
  have finishes : lastStart.Finishes := by simp [Invocation.Finishes, lastStart]
  exact ⟨by decide +kernel, by decide +kernel, kept, ends.mpr ⟨rfl, fills, finishes⟩⟩

end BootEntropy.RawDump.Reboots
