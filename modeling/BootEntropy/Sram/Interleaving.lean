import Mathlib.Data.List.Sublists
import BootEntropy.Sram.Waiting

/-!
# One row, one start of the board

The state of the experiment in every phase. A line that says a pattern is armed waits
only while the host waits for it, and every dump behind it is of a start with that
pattern filled in. So each row is the dump of its own start of the board, whatever the
order in which the board, the line and the host go on.
-/

namespace BootEntropy.Sram

open BootEntropy.Lib

set_option autoImplicit false

/-! ## The line that is awaited -/

/-- Behind the armed line of the pattern the dumps fit. -/
def Awaited (fits : Boot → Prop) (pattern : UInt8) : List Waiting → Prop
  | [] => False
  | item :: rest =>
      ((∃ boot, item = .line boot (armedLine pattern true)) ∧ Flows fits none rest) ∨
        (item.Plain ∧ Awaited fits pattern rest)

section Awaited

variable {fits other : Boot → Prop} {pattern : UInt8} {items rest : List Waiting}

theorem Awaited.mono (awaited : Awaited fits pattern items)
    (wider : ∀ boot, fits boot → other boot) : Awaited other pattern items := by
  induction items with
  | nil => exact awaited
  | cons item items ih =>
      exact awaited.imp (And.imp_right fun flows => flows.mono wider) (And.imp_right ih)

theorem Awaited.append (awaited : Awaited fits pattern items)
    (always : ∀ opened, Flows fits opened rest) : Awaited fits pattern (items ++ rest) := by
  induction items with
  | nil => exact awaited.elim
  | cons item items ih =>
      exact awaited.imp (And.imp_right fun flows => flows.append always) (And.imp_right ih)

theorem Awaited.front (awaited : Awaited fits pattern (items ++ rest)) :
    Awaited fits pattern items ∨ ∀ item ∈ items, item.Plain := by
  induction items with
  | nil => exact .inr (by simp)
  | cons item items ih =>
      rcases awaited with ⟨armed, flows⟩ | ⟨plain, behind⟩
      · exact .inl (.inl ⟨armed, flows.front⟩)
      · rcases ih behind with here | none
        · exact .inl (.inr ⟨plain, here⟩)
        · exact .inr (List.forall_mem_cons.mpr ⟨plain, none⟩)

theorem Awaited.insert {raw : Bytes} (foreign : isSramLine raw = false)
    (awaited : Awaited fits pattern (items ++ rest)) :
    Awaited fits pattern (items ++ .other raw :: rest) := by
  induction items with
  | nil => exact .inr ⟨foreign, awaited⟩
  | cons item items ih =>
      exact awaited.imp (And.imp_right fun flows => flows.insert foreign) (And.imp_right ih)

theorem awaited_foreign
    (foreign : ∀ item ∈ items, ∃ raw, item = .other raw ∧ isSramLine raw = false)
    (awaited : Awaited fits pattern rest) : Awaited fits pattern (items ++ rest) := by
  induction items with
  | nil => exact awaited
  | cons item items ih =>
      rw [List.forall_mem_cons] at foreign
      obtain ⟨⟨raw, rfl, other⟩, behind⟩ := foreign
      exact .inr ⟨other, ih behind⟩

theorem awaited_armed (boot : Boot) (plain : ∀ item ∈ items, item.Plain) :
    Awaited fits pattern (items ++ [.line boot (armedLine pattern true)]) := by
  induction items with
  | nil => exact .inl ⟨⟨boot, rfl⟩, trivial⟩
  | cons item items ih =>
      rw [List.forall_mem_cons] at plain
      exact .inr ⟨plain.1, ih plain.2⟩

end Awaited

theorem plain_insert {raw : Bytes} {items rest : List Waiting} (foreign : isSramLine raw = false)
    (plain : ∀ item ∈ items ++ rest, item.Plain) :
    ∀ item ∈ items ++ .other raw :: rest, item.Plain := by
  rw [List.forall_mem_append] at plain ⊢
  exact ⟨plain.1, List.forall_mem_cons.mpr ⟨foreign, plain.2⟩⟩

theorem plain_foreign {items : List Waiting}
    (foreign : ∀ item ∈ items, ∃ raw, item = .other raw ∧ isSramLine raw = false) :
    ∀ item ∈ items, item.Plain := by
  intro item member
  obtain ⟨raw, rfl, other⟩ := foreign item member
  exact other

/-! ## The state in each phase -/

/-- What the order of things depends on. -/
structure View where
  pending : List Waiting
  toBoard : Bytes
  reader : CommandReader
  filled : Option UInt8
  unpowered : Bool
  boots : List Boot

def World.view (world : World) : View where
  pending := world.wire ++ world.printing.map (Waiting.line world.boot)
  toBoard := world.toBoard
  reader := world.reader
  filled := world.filled
  unpowered := world.unpowered
  boots := world.boots

def View.Plain (view : View) : Prop := ∀ item ∈ view.pending, item.Plain

def View.Quiet (view : View) : Prop := view.toBoard = [] ∧ view.reader.used = 0

def View.Primed (view : View) (job : Job) : Prop := view.Quiet ∧ view.filled = some job.pattern

/-- A start behind the first `count`, with the pattern of the job filled in before. -/
structure Since (boots : List Boot) (count : Nat) (job : Job) (boot : Boot) : Prop where
  member : boot ∈ boots
  later : count ≤ boot.number
  preceding : boot.preceding = some job.pattern

/-- Power has been off, if the condition says so. -/
def Cold (job : Job) (unpowered : Bool) : Prop := job.condition ≠ .rts → unpowered = true

structure Suits (boots : List Boot) (count : Nat) (job : Job) (boot : Boot) : Prop
    extends Since boots count job boot where
  cold : Cold job boot.unpowered

def InPhase (count : Nat) (view : View) : Phase → Prop
  | .opened => view.Plain ∧ view.toBoard = []
  | .starting _ => view.Plain ∧ view.Quiet
  | .arming job =>
      (view.Plain ∧ Underway job.pattern view.reader view.toBoard) ∨
        (view.Primed job ∧ Awaited (Since view.boots count job) job.pattern view.pending)
  | .armed job => view.Primed job ∧ Flows (Since view.boots count job) none view.pending
  | .off job | .on job =>
      view.Primed job ∧ Cold job view.unpowered ∧
        Flows (Suits view.boots count job) none view.pending
  | .reading job reader =>
      view.Primed job ∧ Cold job view.unpowered ∧
        Follows (Suits view.boots count job) reader view.pending

/-! ## The board and the line -/

theorem print_view (world : World) : world.print.view = world.view := by
  unfold World.print
  split
  · rfl
  · next text texts printing => simp [World.view, printing]

section Steps

variable {count : Nat} {view : View} {phase : Phase}

theorem InPhase.insert {items rest : List Waiting} {raw : Bytes}
    (foreign : isSramLine raw = false) (pending : view.pending = items ++ rest)
    (holds : InPhase count view phase) :
    InPhase count { view with pending := items ++ .other raw :: rest } phase := by
  have plain (here : view.Plain) : ∀ item ∈ items ++ .other raw :: rest, item.Plain := by
    rw [View.Plain, pending] at here
    exact plain_insert foreign here
  cases phase with
  | opened => exact ⟨plain holds.1, holds.2⟩
  | starting reader => exact ⟨plain holds.1, holds.2⟩
  | arming job =>
      rcases holds with ⟨here, underway⟩ | ⟨primed, awaited⟩
      · exact .inl ⟨plain here, underway⟩
      · rw [pending] at awaited
        exact .inr ⟨primed, awaited.insert foreign⟩
  | armed job =>
      obtain ⟨primed, flows⟩ := holds
      rw [pending] at flows
      exact ⟨primed, flows.insert foreign⟩
  | off job =>
      obtain ⟨primed, cold, flows⟩ := holds
      rw [pending] at flows
      exact ⟨primed, cold, flows.insert foreign⟩
  | on job =>
      obtain ⟨primed, cold, flows⟩ := holds
      rw [pending] at flows
      exact ⟨primed, cold, flows.insert foreign⟩
  | reading job reader =>
      obtain ⟨primed, cold, follows⟩ := holds
      rw [pending] at follows
      refine ⟨primed, cold, ?_⟩
      rcases follows with ⟨closed, size, flows⟩ | ⟨boot, fit, sound, flows⟩
      · exact .inl ⟨closed, size, flows.insert foreign⟩
      · exact .inr ⟨boot, fit, sound, flows.insert foreign⟩

def View.start (view : View) (wire : List Waiting) (startup : Startup) (toBoard : Bytes) : View :=
  let boot := ⟨view.boots.length, startup.capture, view.filled, view.unpowered⟩
  { view with
    pending := wire ++ (captureOutput startup.capture).map (Waiting.line boot)
    toBoard := toBoard
    reader := startCommandReader startup.command startup.capture.region.val
    boots := view.boots ++ [boot] }

theorem start_view (world : World) (startup : Startup) (toBoard : Bytes) :
    (world.start startup toBoard).view = world.view.start world.wire startup toBoard := rfl

theorem Since.grow {boots : List Boot} {job : Job} {boot : Boot} (later : List Boot)
    (since : Since boots count job boot) : Since (boots ++ later) count job boot :=
  { since with member := List.mem_append_left _ since.member }

theorem Suits.grow {boots : List Boot} {job : Job} {boot : Boot} (later : List Boot)
    (suits : Suits boots count job boot) : Suits (boots ++ later) count job boot :=
  { suits with member := List.mem_append_left _ suits.member }

theorem plain_capture_output (boot : Boot) :
    ∀ item ∈ (captureOutput boot.capture).map (Waiting.line boot), item.Plain :=
  (@flows_capture_output (fun _ => True) boot trivial none).plain

/-- The board starts again. What it had still to print is lost. -/
theorem InPhase.start {wire lost : List Waiting} {startup : Startup} {toBoard : Bytes}
    (pending : view.pending = wire ++ lost) (kept : toBoard <:+ view.toBoard)
    (bound : count ≤ view.boots.length) (holds : InPhase count view phase) :
    InPhase count (view.start wire startup toBoard) phase := by
  have gone (none : view.toBoard = []) : toBoard = [] := by
    rw [none, List.suffix_nil] at kept
    exact kept
  have quiet (none : view.Quiet) : (view.start wire startup toBoard).Quiet := ⟨gone none.1, rfl⟩
  have plain (here : ∀ item ∈ wire, item.Plain) : (view.start wire startup toBoard).Plain :=
    List.forall_mem_append.mpr ⟨here, plain_capture_output _⟩
  have front (here : view.Plain) : ∀ item ∈ wire, item.Plain := by
    rw [View.Plain, pending, List.forall_mem_append] at here
    exact here.1
  have since (job : Job) (filled : view.filled = some job.pattern) :
      ∀ opened, Flows (Since (view.start wire startup toBoard).boots count job) opened
        ((captureOutput startup.capture).map
          (Waiting.line ⟨view.boots.length, startup.capture, view.filled, view.unpowered⟩)) :=
    flows_capture_output ⟨List.mem_append_right _ (List.mem_singleton_self _), bound, filled⟩
  have suits (job : Job) (filled : view.filled = some job.pattern) (cold : Cold job view.unpowered) :
      ∀ opened, Flows (Suits (view.start wire startup toBoard).boots count job) opened
        ((captureOutput startup.capture).map
          (Waiting.line ⟨view.boots.length, startup.capture, view.filled, view.unpowered⟩)) :=
    flows_capture_output ⟨⟨List.mem_append_right _ (List.mem_singleton_self _), bound, filled⟩, cold⟩
  cases phase with
  | opened => exact ⟨plain (front holds.1), gone holds.2⟩
  | starting reader => exact ⟨plain (front holds.1), quiet holds.2⟩
  | arming job =>
      have begun : Underway job.pattern (view.start wire startup toBoard).reader [] :=
        Underway.empty rfl
      rcases holds with ⟨here, underway⟩ | ⟨primed, awaited⟩
      · refine .inl ⟨plain (front here), begun.room, ?_⟩
        have suffix : toBoard <:+ fillCommand job.pattern :=
          kept.trans ((List.suffix_append _ _).trans underway.suffix)
        exact suffix
      · rw [pending] at awaited
        rcases awaited.front with here | here
        · exact .inr ⟨⟨quiet primed.1, primed.2⟩,
            (here.mono fun boot since => since.grow _).append (since job primed.2)⟩
        · refine .inl ⟨plain here, ?_⟩
          rw [show (view.start wire startup toBoard).toBoard = [] from gone primed.1.1]
          exact begun
  | armed job =>
      obtain ⟨primed, flows⟩ := holds
      rw [pending] at flows
      exact ⟨⟨quiet primed.1, primed.2⟩,
        (flows.front.mono fun boot since => since.grow _).append (since job primed.2)⟩
  | off job =>
      obtain ⟨primed, cold, flows⟩ := holds
      rw [pending] at flows
      exact ⟨⟨quiet primed.1, primed.2⟩, cold,
        (flows.front.mono fun boot suits => suits.grow _).append (suits job primed.2 cold)⟩
  | on job =>
      obtain ⟨primed, cold, flows⟩ := holds
      rw [pending] at flows
      exact ⟨⟨quiet primed.1, primed.2⟩, cold,
        (flows.front.mono fun boot suits => suits.grow _).append (suits job primed.2 cold)⟩
  | reading job reader =>
      obtain ⟨primed, cold, follows⟩ := holds
      rw [pending] at follows
      refine ⟨⟨quiet primed.1, primed.2⟩, cold, ?_⟩
      rcases follows with ⟨closed, size, flows⟩ | ⟨boot, fit, sound, flows⟩
      · exact .inl ⟨closed, size,
          (flows.front.mono fun boot suits => suits.grow _).append (suits job primed.2 cold)⟩
      · exact .inr ⟨boot, fit.grow _, sound,
          (flows.front.mono fun boot suits => suits.grow _).append (suits job primed.2 cold)⟩

theorem poll_view_of_none {world : World} (none : world.toBoard = []) :
    world.poll.view = world.view := by
  unfold World.poll
  split_ifs
  · split
    · rfl
    · next c toBoard coming =>
        rw [none] at coming
        cases coming
  · rfl

theorem InPhase.underway {c : UInt8} {toBoard : Bytes} (holds : InPhase count view phase)
    (coming : view.toBoard = c :: toBoard) :
    ∃ job, phase = .arming job ∧ view.Plain ∧ Underway job.pattern view.reader view.toBoard := by
  have filled {empty : view.toBoard = []} : False := by
    rw [empty] at coming
    cases coming
  cases phase with
  | opened => exact (@filled holds.2).elim
  | starting reader => exact (@filled holds.2.1).elim
  | arming job =>
      rcases holds with ⟨plain, underway⟩ | ⟨primed, _⟩
      · exact ⟨job, rfl, plain, underway⟩
      · exact (@filled primed.1.1).elim
  | armed job => exact (@filled holds.1.1.1).elim
  | off job => exact (@filled holds.1.1.1).elim
  | on job => exact (@filled holds.1.1.1).elim
  | reading job reader => exact (@filled holds.1.1.1).elim

theorem InPhase.poll {world : World} (holds : InPhase count world.view phase) :
    InPhase count world.poll.view phase := by
  cases coming : world.toBoard with
  | nil =>
      rw [poll_view_of_none coming]
      exact holds
  | cons c toBoard =>
      obtain ⟨job, rfl, plain, underway⟩ := holds.underway coming
      by_cases idle : world.powered = true ∧ world.printing = []
      · have wire : ∀ item ∈ world.wire, item.Plain := (List.forall_mem_append.mp plain).1
        have arriving : Underway job.pattern world.reader (c :: toBoard) := coming ▸ underway
        have polled : world.poll = { world with
            reader := stepReader world.reader (some c)
            toBoard := toBoard
            printing :=
              (stepReader world.reader (some c)).console.drop world.reader.console.length
            filled := ((stepReader world.reader (some c)).filled.drop
              world.reader.filled.length).getLast?.or world.filled
            unpowered := world.unpowered && ((stepReader world.reader (some c)).filled.drop
              world.reader.filled.length).isEmpty } := by
          rw [World.poll, if_pos idle, coming]
        rw [polled]
        rcases arriving.poll with ⟨rfl, ended⟩ | ⟨_, going, _, fills, console⟩
        · generalize stepReader world.reader (some c) = after at ended ⊢
          cases ended with
          | filled whole used fills console =>
              refine .inr ⟨⟨⟨rfl, used⟩, ?_⟩, ?_⟩
              · simp [World.view, fills]
              · simp only [World.view, console, List.drop_left, List.map_singleton]
                exact awaited_armed _ wire
          | refused cut used fills printed only console =>
              refine .inl ⟨List.forall_mem_append.mpr ⟨wire, ?_⟩, Underway.empty used⟩
              simp only [console, List.drop_left]
              exact (@flows_invalid (fun _ => True) _ _ only none).plain
        · refine .inl ⟨List.forall_mem_append.mpr ⟨wire, ?_⟩, going⟩
          simp [console]
      · rw [World.poll, if_neg idle]
        exact holds

end Steps

end BootEntropy.Sram
