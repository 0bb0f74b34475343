import BootEntropy.Sram.Undisturbed

/-!
# An undisturbed experiment

Job after job is served without a disturbance. Then nothing is raised, and each row has
the region that its job's start of the board captured.
-/

namespace BootEntropy.Sram

open BootEntropy.Lib

set_option autoImplicit false

def experimentEvents (startup : Startup) (served : List (Job × Startup)) : List Event :=
  (.pulse startup 0 :: dumpEvents startup.capture) ++
    served.flatMap fun pair => jobEvents pair.1 pair.2

def rowsFound (start : Nat) (served : List (Job × Startup)) : List Row :=
  (served.zipIdx start).map fun entry =>
    row entry.2 entry.1.1 entry.1.2.capture.region.val entry.1.2.capture.address

/-- What each job's start of the board finds. -/
def serve (jobs : List Job) (startups : Nat → Startup) : List (Job × Startup) :=
  jobs.zipIdx.map fun entry => (entry.1, startups entry.2)

theorem serve_jobs (jobs : List Job) (startups : Nat → Startup) :
    (serve jobs startups).map Prod.fst = jobs := by
  rw [serve, List.map_map]
  exact List.zipIdx_map_fst 0 jobs

theorem serve_zip_idx (jobs : List Job) (startups : Nat → Startup) {entry : (Job × Startup) × Nat}
    (member : entry ∈ (serve jobs startups).zipIdx) : (entry.1.1, entry.2) ∈ jobs.zipIdx := by
  rw [← serve_jobs jobs startups, List.zipIdx_map]
  exact List.mem_map_of_mem (f := Prod.map Prod.fst id) member

/-! ## Arguments -/

theorem map_m_ne_nil {α β ε : Type} {check : α → Except ε β} {items : List α} {checked : List β}
    (some : items ≠ []) (all : items.mapM check = .ok checked) : checked ≠ [] := by
  rintro rfl
  obtain ⟨first, rest, rfl⟩ := List.exists_cons_of_ne_nil some
  rw [List.mapM_cons] at all
  cases one : check first with
  | error error =>
      rw [one] at all
      cases all
  | ok value =>
      rw [one] at all
      cases others : rest.mapM check with
      | error error =>
          rw [others] at all
          cases all
      | ok values =>
          rw [others] at all
          cases all

theorem check_arguments_plan {repetitions : Int} {text : Text} {conditions : List Condition}
    (checked : checkArguments repetitions text = .ok conditions) :
    jobs conditions repetitions.toNat ≠ [] := by
  unfold checkArguments at checked
  split_ifs at checked with positive some
  obtain ⟨condition, rest, rfl⟩ := List.exists_cons_of_ne_nil (map_m_ne_nil some checked)
  obtain ⟨repetition, same⟩ := Nat.exists_eq_succ_of_ne_zero (n := repetitions.toNat) (by omega)
  rw [jobs, List.flatMap_cons, same, List.range_succ_eq_map, List.flatMap_cons, PATTERNS]
  simp

theorem mem_jobs {conditions : List Condition} {repetitions : Nat} {job : Job}
    (member : job ∈ jobs conditions repetitions) : job.condition ∈ conditions := by
  obtain ⟨condition, known, inside⟩ := List.mem_flatMap.mp member
  obtain ⟨repetition, _, last⟩ := List.mem_flatMap.mp inside
  obtain ⟨pattern, _, rfl⟩ := List.mem_map.mp last
  exact known

/-! ## The experiment -/

section Experiment

variable {lineEnd : LineEnd} {host : Host}

theorem run_jobs {served : List (Job × Startup)} {todo : List Job} {rows : List Row}
    {outcome : World × Option Verdict} (planned : served.map Prod.fst = todo)
    (starts : ∀ job ∈ todo, host.Starts job)
    (written : ∀ entry ∈ served.zipIdx rows.length,
      host.writes (captureName entry.2 entry.1.1) = true)
    (done : Done todo rows outcome) :
    ∃ final, resume (stepWorld lineEnd host) outcome
        (served.flatMap fun pair => jobEvents pair.1 pair.2) = (final, some (.ok ())) ∧
      final.rows = rows ++ rowsFound rows.length served := by
  induction served generalizing todo rows outcome with
  | nil =>
      obtain ⟨world, verdict⟩ := outcome
      cases verdict with
      | none =>
          obtain ⟨job, rest, more, _⟩ := done
          rw [← planned] at more
          cases more
      | some verdict =>
          obtain ⟨_, found, rfl⟩ := done
          exact ⟨world, rfl, by simp [found, rowsFound]⟩
  | cons pair served ih =>
      obtain ⟨world, verdict⟩ := outcome
      cases verdict with
      | some verdict =>
          have empty := done.1
          rw [← planned] at empty
          cases empty
      | none =>
          obtain ⟨job, rest, more, waits⟩ := done
          rw [← planned, List.map_cons, List.cons.injEq] at more
          obtain ⟨rfl, jobs⟩ := more
          rw [← planned, List.map_cons, List.forall_mem_cons] at starts
          rw [List.zipIdx_cons, List.forall_mem_cons] at written
          have next := @run_job lineEnd host _ _ _ _ starts.1 waits pair.2 written.1
          obtain ⟨final, finished, found⟩ := ih jobs (jobs ▸ starts.2)
            (by simpa using written.2) next
          refine ⟨final, ?_, ?_⟩
          · rw [List.flatMap_cons, resume, run_append]
            exact finished
          · rw [found]
            simp [rowsFound]

end Experiment

/-- **An undisturbed experiment is complete.** Whatever the starts of the board find in
its memory, the experiment ends without an error and its rows are those of all jobs,
each with the region and the address of its own start. The host has to accept the
arguments, the sleeps and the names of the files. -/
theorem experiment_completes (lineEnd : LineEnd) (host : Host) (repetitions : Int) (text : Text)
    (conditions : List Condition) (checked : checkArguments repetitions text = .ok conditions)
    (pulse : host.pulseEn = .ok ())
    (power : ∀ condition ∈ conditions, condition ≠ .rts → host.powerCommands = true)
    (sleeps : ∀ condition ∈ conditions, condition.sleep = .ok ())
    (written : ∀ entry ∈ (jobs conditions repetitions.toNat).zipIdx,
      host.writes (captureName entry.2 entry.1) = true)
    (first startup : Startup) (printed : Nat) (reader : CommandReader)
    (startups : Nat → Startup) :
    ∃ final, run (stepWorld lineEnd host)
        (startExperiment conditions repetitions.toNat first printed reader)
        (experimentEvents startup (serve (jobs conditions repetitions.toNat) startups)) =
          (final, some (.ok ())) ∧
      final.rows = rowsFound 0 (serve (jobs conditions repetitions.toNat) startups) ∧
      final.rows ≠ [] := by
  have starts : ∀ job ∈ jobs conditions repetitions.toNat, host.Starts job :=
    fun job member => ⟨pulse, power _ (mem_jobs member), sleeps _ (mem_jobs member)⟩
  have begun := @run_first lineEnd host (jobs conditions repetitions.toNat) startup
    (startExperiment conditions repetitions.toNat first printed reader) rfl pulse rfl rfl rfl rfl
  have named : ∀ entry ∈ (serve (jobs conditions repetitions.toNat) startups).zipIdx,
      host.writes (captureName entry.2 entry.1.1) = true :=
    fun entry member => written (entry.1.1, entry.2) (serve_zip_idx _ startups member)
  obtain ⟨final, finished, found⟩ := @run_jobs lineEnd host _ _ [] _ (serve_jobs _ startups) starts
    named begun
  rw [List.nil_append, List.length_nil] at found
  refine ⟨final, ?_, found, ?_⟩
  · rw [experimentEvents, run_append]
    exact finished
  · have some := check_arguments_plan checked
    rw [found]
    simpa [rowsFound, serve] using some

/-- A reset and a loss of power, twice each, with the names that a file system takes. -/
theorem experiment_completes_twice :
    let conditions : List Condition := [.rts, .power "1.5".toList (.finite (3 / 2))]
    let host : Host := ⟨true, .finite 100, fun name => decide (name.length ≤ 255)⟩
    let command : Block commandBytes := zeroBlock commandBytes
    let startup : Startup := ⟨zeroCapture, command⟩
    let startups : Nat → Startup :=
      fun index => if index % 2 = 0 then ⟨rampCapture, command⟩ else startup
    ∃ final, run (stepWorld .crLf host)
        (startExperiment conditions 2 startup 60 (startCommandReader command zeroRegion.val))
        (experimentEvents startup (serve (jobs conditions 2) startups)) =
          (final, some (.ok ())) ∧
      final.rows = rowsFound 0 (serve (jobs conditions 2) startups) ∧ final.rows ≠ [] :=
  experiment_completes .crLf ⟨true, .finite 100, fun name => decide (name.length ≤ 255)⟩ 2
    "rts, power-1.5".toList [.rts, .power "1.5".toList (.finite (3 / 2))] (by decide +kernel)
    (by decide +kernel) (by decide +kernel) (by decide +kernel) (by decide +kernel) _ _ 60 _ _

end BootEntropy.Sram
