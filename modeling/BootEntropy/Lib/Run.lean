import Mathlib.Logic.Basic

/-!
# Runs of a step function that may stop

A step goes on with a new state or stops with a result. `Guarded` says that every
step a run really takes meets a condition. What one guarded step keeps, a guarded
run keeps.
-/

namespace BootEntropy.Lib

set_option autoImplicit false

inductive Next (σ ω : Type) where
  | go (state : σ)
  | stop (state : σ) (result : ω)

variable {σ ι ω : Type}

def Next.state : Next σ ω → σ
  | .go state => state
  | .stop state _ => state

def Next.map {τ : Type} (f : σ → τ) : Next σ ω → Next τ ω
  | .go state => .go (f state)
  | .stop state result => .stop (f state) result

def Next.outcome : Next σ ω → σ × Option ω
  | .go state => (state, none)
  | .stop state result => (state, some result)

/-- A turn keeps an invariant or ends with a result that may be returned. -/
def Next.Keeps (invariant : σ → Prop) (good : ω → Prop) : Next σ ω → Prop
  | .go state => invariant state
  | .stop _ result => good result

theorem Next.Keeps.mono {invariant wider : σ → Prop} {good better : ω → Prop} {next : Next σ ω}
    (keeps : next.Keeps invariant good) (widen : ∀ state, invariant state → wider state)
    (improve : ∀ result, good result → better result) : next.Keeps wider better := by
  cases next with
  | go state => exact widen state keeps
  | stop state result => exact improve result keeps

theorem Next.Keeps.and_state {invariant other : σ → Prop} {good : ω → Prop} {next : Next σ ω}
    (keeps : next.Keeps invariant good) (always : other next.state) :
    next.Keeps (fun state => invariant state ∧ other state) good := by
  cases next with
  | go state => exact ⟨keeps, always⟩
  | stop state result => exact keeps

/-- A turn keeps an invariant or ends as it may end. -/
def Next.Leads (invariant : σ → Prop) (ending : σ → ω → Prop) : Next σ ω → Prop
  | .go state => invariant state
  | .stop state result => ending state result

section Run

variable (step : σ → ι → Next σ ω)

def run : σ → List ι → σ × Option ω
  | state, [] => (state, none)
  | state, input :: inputs =>
      match step state input with
      | .go after => run after inputs
      | .stop after result => (after, some result)

/-- Every step the run takes meets `ok`. -/
def Guarded (ok : σ → ι → Prop) : σ → List ι → Prop
  | _, [] => True
  | state, input :: inputs =>
      ok state input ∧
        match step state input with
        | .go after => Guarded ok after inputs
        | .stop _ _ => True

def decideGuarded (ok : σ → ι → Prop) [∀ state input, Decidable (ok state input)] :
    ∀ state inputs, Decidable (Guarded step ok state inputs)
  | _, [] => isTrue trivial
  | state, input :: inputs =>
      have : Decidable (match step state input with
          | .go after => Guarded step ok after inputs
          | .stop _ _ => True) :=
        match step state input with
        | .go after => decideGuarded ok after inputs
        | .stop _ _ => isTrue trivial
      inferInstanceAs (Decidable (_ ∧ _))

instance (ok : σ → ι → Prop) [∀ state input, Decidable (ok state input)] (state : σ)
    (inputs : List ι) : Decidable (Guarded step ok state inputs) :=
  decideGuarded step ok state inputs

variable {step}

/-- Step lemma to run lemma. -/
theorem run_invariant {ok : σ → ι → Prop} {invariant : σ → Prop}
    (keeps : ∀ state input, invariant state → ok state input →
      invariant (step state input).state) (inputs : List ι) :
    ∀ state, invariant state → Guarded step ok state inputs →
      invariant (run step state inputs).1 := by
  induction inputs with
  | nil => exact fun _ holds _ => holds
  | cons input inputs ih =>
      intro state holds guarded
      have next := keeps state input holds guarded.1
      rw [run]
      cases taken : step state input with
      | go after =>
          rw [taken] at next
          have rest := guarded.2
          rw [taken] at rest
          exact ih after next rest
      | stop after result =>
          rw [taken] at next
          exact next

theorem Guarded.of_mem {ok : σ → ι → Prop} {inputs : List ι}
    (all : ∀ input ∈ inputs, ∀ state, ok state input) : ∀ state, Guarded step ok state inputs := by
  induction inputs with
  | nil => exact fun _ => trivial
  | cons input inputs ih =>
      rw [List.forall_mem_cons] at all
      intro state
      rw [Guarded]
      refine ⟨all.1 state, ?_⟩
      cases step state input with
      | go after => exact ih all.2 after
      | stop after result => trivial

theorem Guarded.of_forall {ok : σ → ι → Prop} (all : ∀ state input, ok state input)
    (inputs : List ι) : ∀ state, Guarded step ok state inputs :=
  Guarded.of_mem fun input _ state => all state input

theorem Guarded.append {ok : σ → ι → Prop} {front rest : List ι} :
    ∀ {state}, Guarded step ok state front →
      (∀ after, run step state front = (after, none) → Guarded step ok after rest) →
      Guarded step ok state (front ++ rest) := by
  induction front with
  | nil => exact fun _ behind => behind _ rfl
  | cons input front ih =>
      intro state guarded behind
      refine ⟨guarded.1, ?_⟩
      cases taken : step state input with
      | stop after result => trivial
      | go after =>
          have later := guarded.2
          rw [taken] at later
          refine ih later fun final ran => behind final ?_
          rw [run, taken]
          exact ran

/-- In a run of quiet steps: if a quiet step keeps the invariant just when it meets
`ok`, the invariant holds at every point just when the run is guarded by `ok`. -/
theorem run_always_iff_of_quiet {quiet ok : σ → ι → Prop} {invariant : σ → Prop}
    (decides : ∀ state input, invariant state → quiet state input →
      (invariant (step state input).state ↔ ok state input)) (inputs : List ι) :
    ∀ state, invariant state → Guarded step quiet state inputs →
      ((∀ count, invariant (run step state (inputs.take count)).1) ↔
        Guarded step ok state inputs) := by
  induction inputs with
  | nil =>
      intro state holds _
      apply iff_of_true _ trivial
      intro count
      rw [List.take_nil]
      exact holds
  | cons input inputs ih =>
      intro state holds quietly
      have decided := decides state input holds quietly.1
      have quietRest := quietly.2
      rw [Guarded, ← decided]
      cases taken : step state input with
      | go after =>
          rw [taken] at quietRest
          have run_cons (count : Nat) : run step state ((input :: inputs).take (count + 1)) =
              run step after (inputs.take count) := by
            rw [List.take_succ_cons, run, taken]
          dsimp only [Next.state]
          constructor
          · intro always
            have kept : invariant after := by
              have first := always 1
              rwa [run_cons 0] at first
            refine ⟨kept, (ih after kept quietRest).mp ?_⟩
            intro count
            rw [← run_cons]
            exact always (count + 1)
          · rintro ⟨kept, rest⟩ count
            cases count with
            | zero => exact holds
            | succ count =>
                rw [run_cons]
                exact (ih after kept quietRest).mpr rest count
      | stop after result =>
          have run_cons (count : Nat) : run step state ((input :: inputs).take (count + 1)) =
              (after, some result) := by
            rw [List.take_succ_cons, run, taken]
          dsimp only [Next.state]
          constructor
          · intro always
            have first := always 1
            rw [run_cons 0] at first
            exact ⟨first, trivial⟩
          · rintro ⟨kept, _⟩ count
            cases count with
            | zero => exact holds
            | succ count =>
                rw [run_cons]
                exact kept

/-- If a step has the property behind it just when it had it before and meets `ok`,
a run has it at its end just when it is guarded. -/
theorem run_holds_iff {ok : σ → ι → Prop} {books holds : σ → Prop}
    (keeps : ∀ state input, books state → books (step state input).state)
    (decides : ∀ state input, books state →
      (holds (step state input).state ↔ holds state ∧ ok state input)) (inputs : List ι) :
    ∀ state, books state →
      (holds (run step state inputs).1 ↔ holds state ∧ Guarded step ok state inputs) := by
  induction inputs with
  | nil => exact fun state _ => (and_iff_left trivial).symm
  | cons input inputs ih =>
      intro state kept
      have keptNext := keeps state input kept
      have decided := decides state input kept
      rw [run, Guarded, ← and_assoc, ← decided]
      cases taken : step state input with
      | go after =>
          rw [taken] at keptNext
          exact ih after keptNext
      | stop after result => exact (and_iff_left trivial).symm

/-- A run avoids a result exactly when each of its steps does. -/
theorem run_avoids_iff (bad : ω → Prop) (inputs : List ι) :
    ∀ state, (∀ result, (run step state inputs).2 = some result → ¬bad result) ↔
      Guarded step (fun state input => ∀ after result,
        step state input = .stop after result → ¬bad result) state inputs := by
  induction inputs with
  | nil =>
      intro state
      exact ⟨fun _ => trivial, fun _ _ stopped => absurd stopped (by simp [run])⟩
  | cons input inputs ih =>
      intro state
      rw [run, Guarded]
      cases taken : step state input with
      | go after =>
          dsimp only
          rw [ih after]
          refine ⟨fun rest => ⟨?_, rest⟩, And.right⟩
          intro _ _ stopped
          cases stopped
      | stop after result =>
          dsimp only
          constructor
          · intro avoids
            refine ⟨?_, trivial⟩
            intro _ other same
            rw [← (Next.stop.inj same).2]
            exact avoids result rfl
          · intro avoids other same
            rw [← Option.some.inj same]
            exact avoids.1 after result rfl

theorem Guarded.congr {ok other : σ → ι → Prop} (same : ∀ state input, ok state input ↔ other state input)
    (inputs : List ι) : ∀ state, Guarded step ok state inputs ↔ Guarded step other state inputs := by
  induction inputs with
  | nil => exact fun _ => Iff.rfl
  | cons input inputs ih =>
      intro state
      rw [Guarded, Guarded, same]
      apply and_congr_right
      intro _
      cases step state input with
      | go after => exact ih after
      | stop after result => exact Iff.rfl

theorem run_congr_of_guarded {other : σ → ι → Next σ ω} {ok : σ → ι → Prop}
    (same : ∀ state input, ok state input → step state input = other state input)
    (inputs : List ι) :
    ∀ state, Guarded step ok state inputs → run step state inputs = run other state inputs := by
  induction inputs with
  | nil => exact fun _ _ => rfl
  | cons input inputs ih =>
      intro state guarded
      have taken := same state input guarded.1
      have rest := guarded.2
      rw [run, run, ← taken]
      cases next : step state input with
      | go after =>
          rw [next] at rest
          exact ih after rest
      | stop after result => rfl

/-! ## Parts of a run -/

theorem run_append_of_running (front rest : List ι) :
    ∀ state, (run step state front).2 = none →
      run step state (front ++ rest) = run step (run step state front).1 rest := by
  induction front with
  | nil => exact fun _ _ => rfl
  | cons input front ih =>
      intro state running
      rw [run] at running
      rw [List.cons_append, run, run]
      cases taken : step state input with
      | go after =>
          rw [taken] at running
          exact ih after running
      | stop after result =>
          rw [taken] at running
          cases running

theorem run_append_of_stopped {result : ω} (front rest : List ι) :
    ∀ state, (run step state front).2 = some result →
      run step state (front ++ rest) = run step state front := by
  induction front with
  | nil =>
      intro _ stopped
      cases stopped
  | cons input front ih =>
      intro state stopped
      rw [run] at stopped
      rw [List.cons_append, run, run]
      cases taken : step state input with
      | go after =>
          rw [taken] at stopped
          exact ih after stopped
      | stop after other => rfl

def resume (step : σ → ι → Next σ ω) : σ × Option ω → List ι → σ × Option ω
  | (state, none), inputs => run step state inputs
  | (state, some result), _ => (state, some result)

theorem run_append (front rest : List ι) (state : σ) :
    run step state (front ++ rest) = resume step (run step state front) rest := by
  rcases outcome : run step state front with ⟨after, stopped⟩
  cases stopped with
  | none =>
      rw [run_append_of_running front rest state (by rw [outcome]), outcome]
      rfl
  | some result =>
      rw [run_append_of_stopped front rest state (by rw [outcome]), outcome]
      rfl

theorem run_singleton (state : σ) (input : ι) :
    run step state [input] = (step state input).outcome := by
  rw [run]
  cases step state input with
  | go after => rfl
  | stop after result => rfl

theorem run_running {inputs : List ι}
    (goes : ∀ state, ∀ input ∈ inputs, ∃ after, step state input = .go after) :
    ∀ state, (run step state inputs).2 = none := by
  induction inputs with
  | nil => exact fun _ => rfl
  | cons input inputs ih =>
      intro state
      obtain ⟨after, taken⟩ := goes state input (List.mem_cons_self ..)
      rw [run, taken]
      exact ih (fun before other member => goes before other (List.mem_cons_of_mem _ member)) after

theorem run_keeps {kind : ι → Prop} {invariant : σ → Prop} {good : ω → Prop}
    (keeps : ∀ state input, invariant state → kind input →
      (step state input).Keeps invariant good) {inputs : List ι}
    (kinds : ∀ input ∈ inputs, kind input) :
    ∀ state, invariant state →
      ((run step state inputs).2 = none → invariant (run step state inputs).1) ∧
      ∀ result, (run step state inputs).2 = some result → good result := by
  induction inputs with
  | nil => exact fun state holds => ⟨fun _ => holds, fun result returned => nomatch returned⟩
  | cons input inputs ih =>
      intro state holds
      have next := keeps state input holds (kinds input (List.mem_cons_self ..))
      rw [run]
      cases taken : step state input with
      | go after =>
          rw [taken] at next
          exact ih (fun other member => kinds other (List.mem_cons_of_mem _ member)) after next
      | stop after result =>
          rw [taken] at next
          constructor
          · exact fun running => nomatch running
          · intro other returned
            rw [← Option.some.inj returned]
            exact next

theorem run_leads {ok : σ → ι → Prop} {invariant : σ → Prop} {ending : σ → ω → Prop}
    (leads : ∀ state input, invariant state → ok state input →
      (step state input).Leads invariant ending) (inputs : List ι) :
    ∀ state, invariant state → Guarded step ok state inputs →
      ((run step state inputs).2 = none → invariant (run step state inputs).1) ∧
      ∀ result, (run step state inputs).2 = some result →
        ending (run step state inputs).1 result := by
  induction inputs with
  | nil =>
      intro state holds _
      refine ⟨fun _ => holds, ?_⟩
      intro result stopped
      cases stopped
  | cons input inputs ih =>
      intro state holds guarded
      have next := leads state input holds guarded.1
      rw [run]
      cases taken : step state input with
      | go after =>
          rw [taken] at next
          have rest := guarded.2
          rw [taken] at rest
          exact ih after next rest
      | stop after result =>
          rw [taken] at next
          constructor
          · intro running
            cases running
          · intro other stopped
            rw [← Option.some.inj stopped]
            exact next

theorem run_filter {keep : ι → Bool}
    (idle : ∀ state input, keep input = false → step state input = .go state) (inputs : List ι) :
    ∀ state, run step state inputs = run step state (inputs.filter keep) := by
  induction inputs with
  | nil => exact fun _ => rfl
  | cons input inputs ih =>
      intro state
      cases kept : keep input with
      | true =>
          rw [List.filter_cons_of_pos kept, run, run]
          cases step state input with
          | go after => exact ih after
          | stop after result => rfl
      | false =>
          rw [List.filter_cons_of_neg (by simp [kept]), run, idle state input kept]
          exact ih state

theorem run_map {κ : Type} {other : σ → κ → Next σ ω} {render : κ → ι} {inputs : List κ}
    (same : ∀ state, ∀ input ∈ inputs, step state (render input) = other state input) :
    ∀ state, run step state (inputs.map render) = run other state inputs := by
  induction inputs with
  | nil => exact fun _ => rfl
  | cons input inputs ih =>
      intro state
      rw [List.map_cons, run, run, same state input (List.mem_cons_self ..)]
      cases other state input with
      | go after =>
          exact ih (fun before next member => same before next (List.mem_cons_of_mem _ member)) after
      | stop after result => rfl

/-- A step function with more state and the same steps runs the same way. -/
theorem run_project {τ κ : Type} {fine : τ → κ → Next τ ω} (project : τ → σ) (coarse : κ → ι)
    (commutes : ∀ state input,
      (fine state input).map project = step (project state) (coarse input)) (inputs : List κ) :
    ∀ state, run step (project state) (inputs.map coarse) =
      (project (run fine state inputs).1, (run fine state inputs).2) := by
  induction inputs with
  | nil => exact fun _ => rfl
  | cons input inputs ih =>
      intro state
      rw [List.map_cons, run, run, ← commutes]
      cases fine state input with
      | go after => exact ih after
      | stop after result => rfl

/-- If each step of `fine` is one of `step` or none at all, so is each of its runs. -/
theorem run_simulated {τ κ υ : Type} {fine : τ → κ → Next τ υ} (project : τ → σ)
    (simulates : ∀ state input, project (fine state input).state = project state ∨
      ∃ coarse, step (project state) coarse = .go (project (fine state input).state))
    (inputs : List κ) : ∀ state, ∃ plain,
      (run step (project state) plain).1 = project (run fine state inputs).1 := by
  induction inputs with
  | nil => exact fun _ => ⟨[], rfl⟩
  | cons input inputs ih =>
      intro state
      have first := simulates state input
      have rest : ∃ plain, (run step (project (fine state input).state) plain).1 =
          project (run fine state (input :: inputs)).1 := by
        rw [run]
        cases fine state input with
        | go after => exact ih after
        | stop after result => exact ⟨[], rfl⟩
      obtain ⟨plain, reached⟩ := rest
      rcases first with same | ⟨coarse, taken⟩
      · rw [same] at reached
        exact ⟨plain, reached⟩
      · refine ⟨coarse :: plain, ?_⟩
        rw [run, taken]
        exact reached

/-- With a rank that falls at each step, a run that is long enough stops. -/
theorem run_stops {rank : σ → Nat}
    (falls : ∀ state input after, step state input = .go after → rank after < rank state)
    (inputs : List ι) : ∀ state, rank state < inputs.length → (run step state inputs).2 ≠ none := by
  induction inputs with
  | nil => exact fun _ short => absurd short (Nat.not_lt_zero _)
  | cons input inputs ih =>
      intro state long
      rw [run]
      cases taken : step state input with
      | go after =>
          have lower := falls state input after taken
          rw [List.length_cons] at long
          exact ih after (by omega)
      | stop after result => exact fun none => nomatch none

end Run

theorem foldl_last_change {σ ε β : Type} {handle : σ → ε → σ} {field : σ → β}
    {change : ε → Option β} (one : ∀ state event,
      field (handle state event) = (change event).getD (field state)) (events : List ε) :
    ∀ state, field (events.foldl handle state) =
      (events.filterMap change).getLast?.getD (field state) := by
  induction events with
  | nil => exact fun _ => rfl
  | cons event events ih =>
      intro state
      rw [List.foldl_cons, ih, one]
      cases changed : change event with
      | none => rw [List.filterMap_cons_none changed, Option.getD_none]
      | some value => rw [List.filterMap_cons_some changed, List.getLast?_cons, Option.getD_some,
          Option.getD_some]

end BootEntropy.Lib
