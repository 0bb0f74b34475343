import BootEntropy.Capsule.CutBoots
import BootEntropy.Lib.Decoding
import BootEntropy.Lib.Floats

/-!
# Collecting boot logs

`capture_run` of `collect_teb_boot.py`: a capture writes what it reads, each read decoded on
its own, until a read begins with one of two texts.
-/

namespace BootEntropy.Capsule

open BootEntropy.Lib
open BootEntropy.BootLog

set_option autoImplicit false

/-! ## One capture -/

def resultTag : Text := "[TEB_RESULT]".toList
def requestTag : Text := "[TEB_ERR] request_capsule".toList

def stops (line : Text) : Bool := resultTag.isPrefixOf line || requestTag.isPrefixOf line

/-- The results of `ser.readline()` until the deadline. What is written of them, `saw_result`,
and the reads behind the one that breaks the loop. -/
def captureLoop : List Bytes → Text × Bool × List Bytes
  | [] => ([], false, [])
  | raw :: reads =>
      if raw = [] then captureLoop reads
      else
        let line := decodeUtf8 raw
        if stops line then (line, true, reads)
        else
          let (written, sawResult, unread) := captureLoop reads
          (line ++ written, sawResult, unread)

inductive ResetMode where
  | rts
  | manual
  | none
  deriving DecidableEq, Repr

def ResetMode.text : ResetMode → Text
  | .rts => "rts".toList
  | .manual => "manual".toList
  | .none => "none".toList

/-- What one call finds: the clock at its start and its end, and its reads. -/
structure Capture where
  reset : ResetMode
  started : ℚ
  ended : ℚ
  reads : List Bytes

def hostTag : Text := "[HOST_RUN]".toList

def startMarker (run : Nat) (capture : Capture) : Text :=
  hostTag ++ (" start,".toList ++ decimal run ++ ',' :: (capture.reset.text ++ ',' ::
    fixedPoint 3 capture.started))

def endMarker (run : Nat) (sawResult : Bool) (capture : Capture) : Text :=
  hostTag ++ (" end,".toList ++ decimal run ++ ',' :: (if sawResult then '1' else '0') :: ',' ::
    fixedPoint 3 capture.ended)

def captureRun (run : Nat) (capture : Capture) : Text × Bool :=
  let (written, sawResult, _) := captureLoop capture.reads
  (startMarker run capture ++ ['\n'] ++ written ++ (endMarker run sawResult capture ++ ['\n']), sawResult)

/-- The file behind the calls of `main`. -/
def captureRuns : Nat → List Capture → Text
  | _, [] => []
  | run, capture :: rest => (captureRun run capture).1 ++ captureRuns (run + 1) rest

/-! ## Captures that do not time out -/

/-- `readline` returns at a newline, or earlier when the line is silent. The capture ends with
the read that breaks its loop. -/
structure Capture.Stopped (capture : Capture) : Prop where
  unbroken : ∀ raw ∈ capture.reads, Unbroken 0x0A raw
  stopped : (captureLoop capture.reads).2 = (true, [])

theorem capture_loop_stopped {reads : List Bytes} (stopped : (captureLoop reads).2 = (true, [])) :
    ∃ before last, reads = before ++ [last] ∧ stops (decodeUtf8 last) = true ∧
      (captureLoop reads).1 = before.flatMap decodeUtf8 ++ decodeUtf8 last := by
  induction reads with
  | nil => cases stopped
  | cons raw reads ih =>
      by_cases empty : raw = []
      · have skipped : captureLoop (raw :: reads) = captureLoop reads := by
          rw [captureLoop, if_pos empty]
        rw [skipped] at stopped ⊢
        obtain ⟨before, last, rfl, stop, written⟩ := ih stopped
        refine ⟨raw :: before, last, rfl, stop, ?_⟩
        rw [written, empty]
        rfl
      · by_cases stop : stops (decodeUtf8 raw) = true
        · have broke : captureLoop (raw :: reads) = (decodeUtf8 raw, true, reads) := by
            rw [captureLoop, if_neg empty]
            exact if_pos stop
          rw [broke] at stopped ⊢
          refine ⟨[], raw, ?_, stop, rfl⟩
          rw [show reads = [] from congrArg Prod.snd stopped]
          rfl
        · have went : captureLoop (raw :: reads) = (decodeUtf8 raw ++ (captureLoop reads).1,
              (captureLoop reads).2) := by
            rw [captureLoop, if_neg empty]
            exact if_neg stop
          rw [went] at stopped ⊢
          obtain ⟨before, last, rfl, stopLast, written⟩ := ih stopped
          refine ⟨raw :: before, last, rfl, stopLast, ?_⟩
          rw [written, List.flatMap_cons, List.append_assoc]

def stopTags : List Text := [resultTag, requestTag]

theorem stops_iff {line : Text} : stops line = true ↔ ∃ tag ∈ stopTags, tag <+: line := by
  simp [stops, stopTags, List.isPrefixOf_iff_prefix]

/-! ## Captured boots -/

structure SerialBoot (ending : Text) extends BootOutput ending where
  output : Bytes
  decoded : decodeUtf8 output = text

structure Shot (ending : Text) where
  boot : SerialBoot ending
  capture : Capture

/-- The reads of a capture are what was left unread before it and what its boot sends, up to
what is left unread behind it. -/
def Fed {ending : Text} : Bytes → List (Shot ending) → Prop
  | _, [] => True
  | unread, shot :: rest =>
      ∃ left, unread ++ shot.boot.output = shot.capture.reads.flatten ++ left ∧ Fed left rest

/-- The read that stops the capture begins a line. -/
def Capture.StopsAtLine (capture : Capture) : Prop :=
  ∀ byte ∈ capture.reads.dropLast.flatten.getLast?, byte = 0x0A

end BootEntropy.Capsule
