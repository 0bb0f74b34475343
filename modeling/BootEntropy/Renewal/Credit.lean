import BootEntropy.Renewal.Session

/-!
# Credit for network entropy

What `entropy_add_entropy` is given in a session is the front of what was read in that
session. The buffer and its length are left over from the session before; both are reset
before the first read.
-/

namespace BootEntropy.Renewal

open BootEntropy.Lib

set_option autoImplicit false

/-! ## Accounts of the calls -/

def Call.stored : Call → Bytes
  | .read _ _ _ stored => stored
  | _ => []

def received (calls : List Call) : Bytes := calls.flatMap Call.stored

def Call.isSuccessfulRead : Call → Bool
  | .read _ _ ret _ => 0 < ret
  | _ => false

def Call.isAddEntropy : Call → Bool
  | .addEntropy _ _ _ => true
  | _ => false

/-- A read is offered space of the response buffer. -/
def Call.Inside : Call → Prop
  | .read offset space _ _ => offset + space ≤ responseBufferSize
  | _ => True

theorem received_append (front back : List Call) :
    received (front ++ back) = received front ++ received back := List.flatMap_append

/-- The measurement has not been printed. -/
def Quiet (console : List RenewalLine) : Prop := ∀ line, .iter line ∉ console

theorem Quiet.printed {console : List RenewalLine} (quiet : Quiet console) {last : RenewalLine}
    (other : ∀ line, last ≠ .iter line) : Quiet (console ++ [last]) := by
  intro line member
  rcases List.mem_append.mp member with before | new
  · exact quiet line before
  · exact other line (List.mem_singleton.mp new).symm

/-! ## Reads -/

theorem ReadCall.stored_length {space : Nat} (call : ReadCall space) :
    call.stored.length = call.ret.toNat := by
  have within := call.within
  rw [stored, List.length_take, call.output.property]
  omega

structure ReadsOf (exchange after : Exchange) (reads : List Call) : Prop where
  calls : after.calls = exchange.calls ++ reads
  len : after.responseDataLen = exchange.responseDataLen + (received reads).length
  front : after.responseData.val.take after.responseDataLen =
    exchange.responseData.val.take exchange.responseDataLen ++ received reads
  fits : after.responseDataLen ≤ responseBufferSize
  inside : ∀ call ∈ reads, call.Inside
  few : reads.countP Call.isSuccessfulRead ≤ (received reads).length
  only : reads.countP Call.isAddEntropy = 0

theorem ReadsOf.none {exchange : Exchange} (fits : exchange.responseDataLen ≤ responseBufferSize) :
    ReadsOf exchange exchange [] where
  calls := (List.append_nil _).symm
  len := rfl
  front := (List.append_nil _).symm
  fits := fits
  inside := List.forall_mem_nil _
  few := Nat.le_refl 0
  only := rfl

theorem ReadsOf.trans {exchange middle after : Exchange} {reads more : List Call}
    (first : ReadsOf exchange middle reads) (second : ReadsOf middle after more) :
    ReadsOf exchange after (reads ++ more) where
  calls := by rw [second.calls, first.calls, List.append_assoc]
  len := by rw [second.len, first.len, received_append, List.length_append, Nat.add_assoc]
  front := by rw [second.front, first.front, received_append, List.append_assoc]
  fits := second.fits
  inside := fun call member => (List.mem_append.mp member).elim (first.inside call) (second.inside call)
  few := by
    have front := first.few
    have back := second.few
    rw [List.countP_append, received_append, List.length_append]
    omega
  only := by rw [List.countP_append, first.only, second.only]

theorem one_read {exchange : Exchange} (room : exchange.responseDataLen < responseBufferSize)
    (call : ReadCall (responseBufferSize - exchange.responseDataLen)) :
    ∃ responseData,
      Cells.write exchange.responseData exchange.responseDataLen call.output.val = .ok responseData ∧
      ReadsOf exchange
        { exchange with
          responseData := responseData
          responseDataLen := exchange.responseDataLen + call.ret.toNat
          calls := exchange.calls ++ [.read exchange.responseDataLen
            (responseBufferSize - exchange.responseDataLen) call.ret call.stored] }
        [.read exchange.responseDataLen (responseBufferSize - exchange.responseDataLen)
          call.ret call.stored] := by
  have within := call.within
  have size : exchange.responseDataLen + call.output.val.length = responseBufferSize := by
    rw [call.output.property]
    omega
  have stored : received [.read exchange.responseDataLen
      (responseBufferSize - exchange.responseDataLen) call.ret call.stored] = call.stored :=
    List.flatMap_singleton _ _
  refine ⟨_, Cells.write_ok _ (Nat.le_of_eq size), rfl, ?_, ?_, ?_, ?_, ?_, rfl⟩
  · rw [stored, call.stored_length]
  · have short : call.ret.toNat ≤ call.output.val.length := by
      rw [call.output.property]
      omega
    rw [stored]
    exact Cells.take_written_part _ (Nat.le_of_eq size) short
  · dsimp only
    omega
  · intro read member
    rw [List.mem_singleton.mp member, Call.Inside]
    omega
  · rw [stored, call.stored_length, List.countP_singleton, Call.isSuccessfulRead]
    split_ifs with positive
    · have := of_decide_eq_true positive
      omega
    · exact Nat.zero_le _

variable {build : Build} {session : Session}

theorem read_loop_reads (exchange : Exchange)
    (fits : exchange.responseDataLen ≤ responseBufferSize)
    (quiet : Quiet exchange.console) :
    ∃ ret after reads, readLoop build session exchange = .ok (ret, after) ∧
      ReadsOf exchange after reads ∧ Quiet after.console := by
  induction exchange using readLoop.induct build session with
  | case1 exchange more call fault stopped =>
      obtain ⟨responseData, stored, _⟩ := one_read more.2 call
      rw [stored] at stopped
      cases stopped
  | case2 exchange more call responseData stored failed =>
      obtain ⟨_, written, step⟩ := one_read more.2 call
      cases Except.ok.inj (stored.symm.trans written)
      have none : call.ret.toNat = 0 := Int.toNat_of_nonpos failed
      rw [none] at step
      rw [readLoop, dif_pos more]
      dsimp only
      rw [stored]
      dsimp only
      rw [if_pos failed]
      exact ⟨_, _, _, rfl, ⟨step.calls, step.len, step.front, step.fits, step.inside, step.few,
        step.only⟩, quiet.printed fun _ => RenewalLine.noConfusion⟩
  | case3 exchange more call responseData stored after going ih =>
      obtain ⟨_, written, step⟩ := one_read more.2 call
      cases Except.ok.inj (stored.symm.trans written)
      obtain ⟨ret, last, reads, run, rest, silent⟩ := ih step.fits quiet
      rw [readLoop, dif_pos more]
      dsimp only
      rw [stored]
      dsimp only
      rw [if_neg going]
      exact ⟨ret, last, _, run, step.trans rest, silent⟩
  | case4 exchange done =>
      rw [readLoop, dif_neg done]
      exact ⟨0, exchange, [], rfl, ReadsOf.none fits, quiet⟩

/-! ## Request -/

def setupCalls (build : Build) : List Call :=
  [.connect wolfsslSuccess, .write (requestText build) (requestText build).length]

structure Requested (build : Build) (ret : Int) (after : Exchange) : Prop where
  quiet : Quiet after.console
  inside : ∀ call ∈ after.calls, call.Inside
  ends : after.calls.countP Call.isSuccessfulRead ≤ responseBufferSize
  unadded : after.calls.countP Call.isAddEntropy = 0
  fits : after.responseDataLen ≤ responseBufferSize
  len : after.responseDataLen = (received after.calls).length
  front : after.responseData.val.take after.responseDataLen = received after.calls
  setup : ret = 0 → setupCalls build ⊆ after.calls

/-- A call that neither reads nor adds. -/
def Call.isSetup : Call → Bool
  | .connect _ => true
  | .write _ _ => true
  | _ => false

theorem setup_calls_idle {calls : List Call} (setup : calls.all Call.isSetup) :
    (∀ call ∈ calls, call.Inside) ∧ calls.countP Call.isSuccessfulRead = 0 ∧
      calls.countP Call.isAddEntropy = 0 ∧ received calls = [] := by
  induction calls with
  | nil => exact ⟨List.forall_mem_nil _, rfl, rfl, rfl⟩
  | cons call calls ih =>
      rw [List.all_cons, Bool.and_eq_true] at setup
      obtain ⟨inside, noRead, noAdd, none⟩ := ih setup.2
      have first := setup.1
      cases call with
      | read => cases first
      | addEntropy => cases first
      | connect ret => exact ⟨List.forall_mem_cons.mpr ⟨trivial, inside⟩, noRead, noAdd, none⟩
      | write request ret => exact ⟨List.forall_mem_cons.mpr ⟨trivial, inside⟩, noRead, noAdd, none⟩

theorem requested_of_setup {ret : Int} {after : Exchange} (quiet : Quiet after.console)
    (setup : after.calls.all Call.isSetup) (len : after.responseDataLen = 0) (failed : ret ≠ 0) :
    Requested build ret after := by
  obtain ⟨inside, noRead, noAdd, none⟩ := setup_calls_idle setup
  refine ⟨quiet, inside, ?_, noAdd, ?_, ?_, ?_, fun succeeded => absurd succeeded failed⟩
  · rw [noRead]
    exact Nat.zero_le _
  · rw [len]
    exact Nat.zero_le _
  · rw [len, none]
    rfl
  · rw [len, none]
    rfl

theorem requested_of_reads {ret : Int} {asked after : Exchange} {reads : List Call}
    (quiet : Quiet after.console) (setup : asked.calls = setupCalls build)
    (fresh : asked.responseDataLen = 0) (whole : ReadsOf asked after reads) :
    Requested build ret after := by
  obtain ⟨inside, noRead, noAdd, none⟩ :=
    setup_calls_idle (show (setupCalls build).all Call.isSetup by rfl)
  have calls : after.calls = setupCalls build ++ reads := by rw [whole.calls, setup]
  have sum : received after.calls = received reads := by
    rw [calls, received_append, none, List.nil_append]
  have len : after.responseDataLen = (received reads).length := by
    rw [whole.len, fresh, Nat.zero_add]
  refine ⟨quiet, ?_, ?_, ?_, whole.fits, ?_, ?_, fun _ => ?_⟩
  · rw [calls]
    exact fun call member => (List.mem_append.mp member).elim (inside call) (whole.inside call)
  · have few := whole.few
    have fits := whole.fits
    rw [calls, List.countP_append, noRead]
    omega
  · rw [calls, List.countP_append, noAdd, whole.only]
  · rw [len, sum]
  · rw [whole.front, fresh, List.take_zero, List.nil_append, sum]
  · rw [calls]
    exact List.subset_append_left _ _

theorem dtls_request_entropy_requested {exchange : Exchange} (fresh : exchange.calls = [])
    (quiet : Quiet exchange.console) :
    ∃ ret after, dtlsRequestEntropy build session exchange = .ok (ret, after) ∧
      Requested build ret after := by
  have still (place : String) : Quiet (exchange.console ++ [.err place session.sslError]) :=
    quiet.printed fun _ => RenewalLine.noConfusion
  rw [dtlsRequestEntropy]
  dsimp only [Exchange.called, Exchange.printed]
  rw [fresh]
  by_cases connected : session.connectRet = wolfsslSuccess
  · rw [if_neg (not_not_intro connected)]
    by_cases wide : (requestText build).length ≤ 0 ∨ dtlsRequestBufferSize ≤ (requestText build).length
    · rw [if_pos wide]
      exact ⟨_, _, rfl, requested_of_setup quiet rfl rfl (by decide)⟩
    · rw [if_neg wide]
      by_cases written : session.writeRet (requestText build) = (requestText build).length
      · rw [if_neg (not_not_intro written), connected, written]
        obtain ⟨ret, after, reads, run, whole, silent⟩ := @read_loop_reads build session
          ⟨⟨zeroBlock responseBufferSize, 0⟩, setupCalls build, exchange.console⟩ (Nat.zero_le _) quiet
        exact ⟨ret, after, run, requested_of_reads silent rfl rfl whole⟩
      · rw [if_pos written]
        exact ⟨_, _, rfl, requested_of_setup (still _) rfl rfl (by decide)⟩
  · rw [if_pos connected]
    exact ⟨_, _, rfl, requested_of_setup (still _) rfl rfl (by decide)⟩

/-! ## Mixing -/

theorem maybe_mix_network_entropy_cases {iter : Int} {exchange : Exchange}
    (fits : exchange.responseDataLen ≤ responseBufferSize)
    (quiet : Quiet exchange.console) :
    ∃ mixed, maybeMixNetworkEntropy build session iter exchange = .ok mixed ∧
      Quiet mixed.exchange.console ∧
      ((mixed.exchange.calls = exchange.calls ∧ mixed.acceptedNetBytes = 0) ∨
        ∃ payload ret, payload ≠ [] ∧
          payload = exchange.responseData.val.take
            (min (min exchange.responseDataLen build.entropyBytes) entropyPayloadMax) ∧
          mixed.exchange.calls = exchange.calls ++ [.addEntropy payload (8 * payload.length) ret] ∧
          mixed.acceptedNetBytes = if ret = 0 then payload.length else 0) := by
  rw [maybeMixNetworkEntropy]
  by_cases compiled : ¬build.networkInjection
  · rw [if_pos compiled]
    exact ⟨_, rfl, quiet, .inl ⟨rfl, rfl⟩⟩
  rw [if_neg compiled]
  by_cases skipped : build.injectEvery ≤ 0 ∨ iter.tmod build.injectEvery ≠ 0
  · rw [if_pos skipped]
    exact ⟨_, rfl, quiet, .inl ⟨rfl, rfl⟩⟩
  rw [if_neg skipped]
  dsimp only
  generalize size : min (min exchange.responseDataLen build.entropyBytes) entropyPayloadMax = payloadLen
  by_cases empty : payloadLen = 0
  · rw [if_pos empty]
    exact ⟨_, rfl, quiet.printed fun _ => RenewalLine.noConfusion, .inl ⟨rfl, rfl⟩⟩
  · have inside : payloadLen ≤ responseBufferSize := by omega
    have taken : (exchange.responseData.val.take payloadLen).length = payloadLen := by
      rw [List.length_take, exchange.responseData.property, Nat.min_eq_left inside]
    rw [if_neg empty, Cells.read_ok _ (by omega), ok_bind, List.drop_zero]
    refine ⟨_, rfl, quiet, .inr ⟨_, session.addEntropy (exchange.responseData.val.take payloadLen)
      (payloadLen * 8), ?_, rfl, ?_, ?_⟩⟩
    · exact List.length_pos_iff.mp (by omega)
    · rw [taken, Nat.mul_comm]
      rfl
    · rw [taken]

/-! ## Session -/

/-- What the bytes of a session are good for. -/
structure Credited (build : Build) (outcome : Mixed) : Prop where
  readsInside : ∀ call ∈ outcome.exchange.calls, call.Inside
  readsEnd : outcome.exchange.calls.countP Call.isSuccessfulRead ≤ responseBufferSize
  addedOnce : outcome.exchange.calls.countP Call.isAddEntropy ≤ 1
  /-- When something is added, all has been received. -/
  added : ∀ before payload creditBits ret after,
    outcome.exchange.calls = before ++ .addEntropy payload creditBits ret :: after →
      setupCalls build ⊆ before ∧ received before ≠ [] ∧
      received outcome.exchange.calls = received before ∧
      payload = (received before).take
        (min (min (received before).length build.entropyBytes) entropyPayloadMax) ∧
      creditBits = 8 * payload.length ∧
      outcome.acceptedNetBytes = if ret = 0 then payload.length else 0
  notAdded : outcome.exchange.calls.countP Call.isAddEntropy = 0 → outcome.acceptedNetBytes = 0
  printed : ∀ line, .iter line ∈ outcome.exchange.console →
    line.acceptedNetBytes = outcome.acceptedNetBytes

theorem credited_of_none {outcome : Mixed} (inside : ∀ call ∈ outcome.exchange.calls, call.Inside)
    (ends : outcome.exchange.calls.countP Call.isSuccessfulRead ≤ responseBufferSize)
    (none : outcome.exchange.calls.countP Call.isAddEntropy = 0) (zero : outcome.acceptedNetBytes = 0)
    (quiet : Quiet outcome.exchange.console) : Credited build outcome where
  readsInside := inside
  readsEnd := ends
  addedOnce := Nat.le_of_eq none |>.trans (Nat.zero_le 1)
  added := by
    intro before payload creditBits ret after split
    rw [split, List.countP_append, List.countP_cons_of_pos rfl] at none
    omega
  notAdded := fun _ => zero
  printed := fun line member => absurd member (quiet line)

theorem Requested.credited {exchange : Exchange} {iter : Int}
    (requested : Requested build 0 exchange) :
    ∃ mixed, maybeMixNetworkEntropy build session iter exchange = .ok mixed ∧
      Quiet mixed.exchange.console ∧ Credited build mixed := by
  obtain ⟨mixed, run, silent, ⟨same, zero⟩ | ⟨payload, ret, some, cut, added, accepted⟩⟩ :=
    @maybe_mix_network_entropy_cases build session iter exchange requested.fits requested.quiet
  · refine ⟨mixed, run, silent, credited_of_none ?_ ?_ ?_ zero silent⟩
    · rw [same]
      exact requested.inside
    · rw [same]
      exact requested.ends
    · rw [same]
      exact requested.unadded
  · have payloadEq : payload = (received exchange.calls).take
        (min (min (received exchange.calls).length build.entropyBytes) entropyPayloadMax) := by
      rw [cut, ← requested.len, ← requested.front, List.take_take]
      congr 1
      omega
    have total : received mixed.exchange.calls = received exchange.calls := by
      rw [added, received_append]
      exact List.append_nil _
    refine ⟨mixed, run, silent, ?_, ?_, ?_, ?_, ?_, fun line member => absurd member (silent line)⟩
    · rw [added]
      intro call member
      rcases List.mem_append.mp member with before | last
      · exact requested.inside call before
      · cases List.mem_singleton.mp last
        trivial
    · rw [added, List.countP_append]
      exact requested.ends
    · rw [added, List.countP_append, requested.unadded]
      exact Nat.le_refl 1
    · intro before other creditBits last tail split
      rw [added] at split
      have notBefore : Call.addEntropy other creditBits last ∉ exchange.calls := fun member =>
        List.countP_eq_zero.mp requested.unadded _ member rfl
      obtain ⟨sameBefore, sameCall, _⟩ :=
        (List.append_cons_inj_of_notMem notBefore List.not_mem_nil).mp split
      cases sameCall
      rw [← sameBefore, total]
      refine ⟨requested.setup rfl, ?_, rfl, payloadEq, rfl, accepted⟩
      intro nothing
      rw [nothing, List.take_nil] at payloadEq
      exact some payloadEq
    · rw [added, List.countP_append, requested.unadded]
      intro absent
      cases absent

theorem mix_requested_credited {ret : Int} {exchange : Exchange} {iter : Int}
    (requested : Requested build ret exchange) :
    ∃ mixed, mixRequested build session iter (ret, exchange) = .ok mixed ∧
      Quiet mixed.exchange.console ∧ Credited build mixed := by
  rw [mixRequested]
  by_cases succeeded : ret = 0
  · rw [succeeded] at requested
    rw [if_pos succeeded]
    exact requested.credited
  · rw [if_neg succeeded]
    exact ⟨_, rfl, requested.quiet, credited_of_none requested.inside requested.ends
      requested.unadded rfl requested.quiet⟩

theorem measure_session_credited {iter : Int} {measured : Bool} {exchange : Exchange}
    (fresh : exchange.calls = []) (quiet : Quiet exchange.console) :
    ∃ outcome, measureSession build session iter measured exchange = .ok outcome ∧
      Credited build outcome := by
  obtain ⟨ret, after, request, requested⟩ :=
    @dtls_request_entropy_requested build session exchange fresh quiet
  obtain ⟨mixed, run, silent, credited⟩ := @mix_requested_credited build session ret after iter requested
  rw [measureSession, request, ok_bind, run, ok_bind]
  cases measured with
  | false => exact ⟨mixed, rfl, credited⟩
  | true =>
      refine ⟨_, rfl, credited.readsInside, credited.readsEnd, credited.addedOnce, credited.added,
        credited.notAdded, fun line member => ?_⟩
      rcases List.mem_append.mp member with before | last
      · exact absurd before (silent line)
      · cases List.mem_singleton.mp last
        rfl

theorem quiet_nil : Quiet [] := fun _ member => absurd member List.not_mem_nil

theorem run_one_iteration_cases (build : Build) (session : Session) (iter : Int) (measured : Bool)
    (response : Response) :
    (∃ ret console, Quiet console ∧ runOneIteration build session iter measured response =
      .ok ⟨ret, 0, { response with calls := [], console := console }⟩) ∨
    runOneIteration build session iter measured response =
      measureSession build session iter measured { response with calls := [], console := [] } := by
  rw [runOneIteration]
  by_cases noCtx : ¬session.ctxCreated
  · rw [if_pos noCtx]
    exact .inl ⟨_, _, quiet_nil, rfl⟩
  rw [if_neg noCtx]
  by_cases noSocket : session.fd < 0
  · rw [if_pos noSocket]
    exact .inl ⟨_, _, quiet_nil, rfl⟩
  rw [if_neg noSocket]
  by_cases noSsl : ¬session.sslCreated
  · rw [if_pos noSsl]
    exact .inl ⟨_, _, quiet_nil, rfl⟩
  rw [if_neg noSsl]
  by_cases rejected : session.configured ≠ 0
  · rw [if_pos rejected]
    exact .inl ⟨_, _, quiet_nil.printed fun _ => RenewalLine.noConfusion, rfl⟩
  · rw [if_neg rejected]
    exact .inr rfl

theorem run_one_iteration_credited (iteration : Iteration) (response : Response) :
    ∃ outcome, runOneIteration build iteration.session iteration.iter iteration.measured response =
      .ok outcome ∧ Credited build outcome := by
  rcases run_one_iteration_cases build iteration.session iteration.iter iteration.measured response
    with ⟨ret, console, silent, run⟩ | run
  · exact ⟨_, run, credited_of_none (List.forall_mem_nil _)
      (Nat.zero_le _) rfl rfl silent⟩
  · rw [run]
    exact measure_session_credited rfl quiet_nil

/-- No iteration of a run faults, and in each of them at most the bytes of its own session
are added, for at most their number. -/
theorem network_entropy_credited (build : Build) (response : Response)
    (iterations : List Iteration) :
    ∃ outcomes, runIterations build response iterations = .ok outcomes ∧
      outcomes.length = iterations.length ∧ ∀ outcome ∈ outcomes, Credited build outcome := by
  induction iterations generalizing response with
  | nil => exact ⟨[], rfl, rfl, List.forall_mem_nil _⟩
  | cons iteration rest ih =>
      obtain ⟨outcome, ran, credited⟩ := @run_one_iteration_credited build iteration response
      obtain ⟨outcomes, run, count, all⟩ := ih outcome.exchange.toResponse
      rw [runIterations, ran, ok_bind, run, ok_bind]
      exact ⟨_, rfl, congrArg (· + 1) count, List.forall_mem_cons.mpr ⟨credited, all⟩⟩

end BootEntropy.Renewal
