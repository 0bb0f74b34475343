import BootEntropy.Capsule.RoundTrip

/-!
# Warm resets

`next_boot_counter` writes the retained counter with three volatile stores. Memory
that holds a counter goes one step further at each boot that draws it, and a reset
before or after the stores, or right behind the magic, changes nothing about that.
A reset between the stores of the value and of the check leaves a counter that the
next boot throws away, and the count starts again at 1.
-/

namespace BootEntropy.Capsule

open BootEntropy.Lib

set_option autoImplicit false

/-! ## One boot -/

/-- Where the next reset hits a boot: with `stores` of the three stores of
`next_boot_counter` done, in front of the hello, or later. -/
inductive Reset where
  | inCounter (stores : Fin 3)
  | beforeSend
  | later
  deriving DecidableEq, Repr

structure Boot (profile : Profile) where
  env : Environment profile
  reset : Reset

/-- The volatile stores of `next_boot_counter`, in program order. -/
def counterStores (value : UInt32) : List (RetainedCounter → RetainedCounter) :=
  [fun memory => { memory with magic := tebCounterMagic },
    fun memory => { memory with value },
    fun memory => { memory with check := value ^^^ tebCounterMagic }]

def Reset.storesDone : Reset → Nat
  | .inCounter stores => stores.val
  | .beforeSend => 3
  | .later => 3

def sendHelloLine : ConsoleLine := .tagged .tebNet ["send_hello", toString tebHelloLen]

section Boot

variable {profile : Profile}

/-- The boot gets through `next_boot_counter`. -/
def Boot.drawsCounter (boot : Boot profile) : Bool :=
  boot.env.deviceReady && decide (boot.reset.storesDone = 3)

/-- The retained memory at the end of a boot. -/
def Boot.retainedAfter (boot : Boot profile) (retained : RetainedCounter) : RetainedCounter :=
  if boot.env.deviceReady then
    ((counterStores (nextBootCounter retained).1).take boot.reset.storesDone).foldl
      (fun memory store => store memory) retained
  else retained

/-- `hello_fields` of a boot that draws its counter. -/
def Boot.helloFields (boot : Boot profile) (retained : RetainedCounter) : Option HelloFields :=
  if boot.drawsCounter then some (bootHello boot.env (nextBootCounter retained).1) else none

/-- The hello handed to `zsock_send`, right behind its console line. -/
def Boot.sentHello (boot : Boot profile) (retained : RetainedCounter) : Option Bytes :=
  if boot.reset = .later ∧ sendHelloLine ∈ (clientMain boot.env retained).1.console then
    (boot.helloFields retained).map (tebBuildHello profile)
  else none

theorem client_main_retained (env : Environment profile) (retained : RetainedCounter) :
    (clientMain env retained).1.retained = Boot.retainedAfter ⟨env, .later⟩ retained := by
  have derived (puf : PufSample) (fields : CapsuleFields) (trace : Trace) :
      (deriveAndInject env puf fields trace).1.retained = trace.retained := by
    simp only [deriveAndInject]
    split_ifs
    · rfl
    · rfl
    · rfl
    · rfl
    · rfl
  have accepted (hello : Bytes) (fields : HelloFields) (puf : PufSample) (capsule : Bytes)
      (trace : Trace) :
      (acceptCapsule env hello fields puf capsule trace).1.retained = trace.retained := by
    unfold acceptCapsule
    split
    · rfl
    · dsimp only
      split_ifs
      · rfl
      · rfl
      · rfl
      · rfl
      · rfl
      · exact derived _ _ _
  have exchanged (fields : HelloFields) (trace : Trace) :
      (exchangeAndAccept env fields trace).1.retained = trace.retained := by
    unfold exchangeAndAccept
    dsimp only
    split_ifs
    · rfl
    · exact accepted _ _ _ _ _
    · exact accepted _ _ _ _ _
  have joined (fields : HelloFields) (trace : Trace) :
      (joinNetwork env fields trace).1.retained = trace.retained := by
    unfold joinNetwork
    dsimp only
    split_ifs
    · rfl
    · rfl
    · rfl
    · exact exchanged _ _
  unfold clientMain
  dsimp only
  rw [Boot.retainedAfter]
  cases ready : env.deviceReady with
  | false => rfl
  | true =>
      rw [if_neg (by decide), if_pos rfl]
      change _ = (nextBootCounter retained).2
      split_ifs
      · rfl
      · exact joined _ _
      · exact joined _ _

/-! ## A row of boots -/

/-- The retained memory when boot `index` starts. -/
def retainedAt (retained : RetainedCounter) (boots : List (Boot profile)) (index : Nat) :
    RetainedCounter :=
  (boots.take index).foldl (fun memory boot => boot.retainedAfter memory) retained

/-- Memory that `next_boot_counter` has written. -/
structure RetainedCounter.Consistent (retained : RetainedCounter) : Prop where
  magic : retained.magic = tebCounterMagic
  check : retained.check = retained.value ^^^ tebCounterMagic

theorem next_boot_counter_consistent (retained : RetainedCounter) :
    (nextBootCounter retained).2.Consistent := ⟨rfl, rfl⟩

theorem next_boot_counter_value (retained : RetainedCounter) :
    (nextBootCounter retained).2.value = (nextBootCounter retained).1 := rfl

theorem next_boot_counter_of_consistent {retained : RetainedCounter}
    (consistent : retained.Consistent) :
    (nextBootCounter retained).1 = retained.value + 1 := by
  rw [nextBootCounter, if_neg]
  rintro (magic | check)
  · exact magic consistent.magic
  · exact check consistent.check

theorem retained_after_drawn {boot : Boot profile} (draws : boot.drawsCounter = true)
    (retained : RetainedCounter) :
    boot.retainedAfter retained = (nextBootCounter retained).2 := by
  rw [Boot.drawsCounter, Bool.and_eq_true, decide_eq_true_eq] at draws
  rw [Boot.retainedAfter, if_pos draws.1, draws.2]
  rfl

/-- The boot is reset with the value stored and the check still that of the old one. -/
def Boot.cutsCounter (boot : Boot profile) : Bool :=
  boot.env.deviceReady && decide (boot.reset = .inCounter 2)

theorem retained_after_undrawn {boot : Boot profile} (draws : ¬boot.drawsCounter = true)
    (uncut : ¬boot.cutsCounter = true) {retained : RetainedCounter}
    (consistent : retained.Consistent) : boot.retainedAfter retained = retained := by
  rw [Boot.retainedAfter]
  split_ifs with ready
  · have amid : ∃ stores : Fin 3, boot.reset = .inCounter stores := by
      cases hit : boot.reset with
      | inCounter stores => exact ⟨stores, rfl⟩
      | beforeSend => simp [Boot.drawsCounter, ready, hit, Reset.storesDone] at draws
      | later => simp [Boot.drawsCounter, ready, hit, Reset.storesDone] at draws
    obtain ⟨stores, hit⟩ := amid
    rw [hit]
    match stores, hit with
    | 0, _ => rfl
    | 1, _ =>
        change { retained with magic := tebCounterMagic } = retained
        rw [← consistent.magic]
    | 2, hit => simp [Boot.cutsCounter, ready, hit] at uncut
  · rfl

/-- No boot that starts from a counter is cut between its value and its check. -/
def CountersKept (retained : RetainedCounter) (boots : List (Boot profile)) : Prop :=
  ∀ (index : Nat) (inside : index < boots.length), (retainedAt retained boots index).Consistent →
    ¬boots[index].cutsCounter = true

theorem CountersKept.tail {retained : RetainedCounter} {boot : Boot profile}
    {boots : List (Boot profile)} (kept : CountersKept retained (boot :: boots)) :
    CountersKept (boot.retainedAfter retained) boots :=
  fun index inside => kept (index + 1) (Nat.succ_lt_succ inside)

theorem CountersKept.drop {retained : RetainedCounter} {boots : List (Boot profile)}
    (kept : CountersKept retained boots) (count : Nat) :
    CountersKept (retainedAt retained boots count) (boots.drop count) := by
  induction count generalizing retained boots with
  | zero => exact kept
  | succ count ih =>
      cases boots with
      | nil => exact fun index inside => absurd inside (Nat.not_lt_zero index)
      | cons boot boots => exact ih kept.tail

theorem CountersKept.take {retained : RetainedCounter} {boots : List (Boot profile)}
    (kept : CountersKept retained boots) (count : Nat) :
    CountersKept retained (boots.take count) := by
  intro index inside consistent
  have early : index < count := by
    rw [List.length_take] at inside
    omega
  rw [List.getElem_take]
  apply kept index
  rwa [retainedAt, List.take_take, min_eq_left (le_of_lt early)] at consistent

/-- The counter goes on by the number of boots that drew it. -/
theorem retained_value_run (boots : List (Boot profile)) {retained : RetainedCounter}
    (consistent : retained.Consistent) (kept : CountersKept retained boots) :
    (boots.foldl (fun memory boot => boot.retainedAfter memory) retained).Consistent ∧
      (boots.foldl (fun memory boot => boot.retainedAfter memory) retained).value =
        retained.value + UInt32.ofNat (boots.countP Boot.drawsCounter) := by
  induction boots generalizing retained with
  | nil => exact ⟨consistent, (UInt32.add_zero _).symm⟩
  | cons boot boots ih =>
      rw [List.foldl_cons, List.countP_cons]
      by_cases draws : boot.drawsCounter = true
      · have after := retained_after_drawn draws retained
        obtain ⟨still, value⟩ := ih (after ▸ next_boot_counter_consistent retained) kept.tail
        apply And.intro still
        rw [value, after, if_pos draws, next_boot_counter_value,
          next_boot_counter_of_consistent consistent, UInt32.ofNat_add, UInt32.add_assoc,
          UInt32.add_comm (UInt32.ofNat _)]
        rfl
      · have uncut : ¬boot.cutsCounter = true := kept 0 (Nat.zero_lt_succ _) consistent
        have after := retained_after_undrawn draws uncut consistent
        obtain ⟨still, value⟩ := ih (after.symm ▸ consistent) kept.tail
        apply And.intro still
        rw [value, after, if_neg draws, Nat.add_zero]

theorem counters_differ {retained : RetainedCounter} {boots : List (Boot profile)}
    (few : boots.length < 2 ^ 32) (kept : CountersKept retained boots) {left right : Nat}
    (order : left < right) (inside : right < boots.length)
    (draws : boots[left].drawsCounter = true) :
    (nextBootCounter (retainedAt retained boots left)).1 ≠
      (nextBootCounter (retainedAt retained boots right)).1 := by
  have leftInside : left < (boots.take right).length := by
    rw [List.length_take]
    omega
  have split := List.drop_eq_getElem_cons leftInside
  rw [List.getElem_take] at split
  have front : (boots.take right).take left = boots.take left := by
    rw [List.take_take, min_eq_left (le_of_lt order)]
  have same : retainedAt retained (boots.take right) left = retainedAt retained boots left := by
    rw [retainedAt, front, retainedAt]
  have after := retained_after_drawn draws (retainedAt retained boots left)
  have memory : retainedAt retained boots right =
      ((boots.take right).drop (left + 1)).foldl (fun memory boot => boot.retainedAfter memory)
        (nextBootCounter (retainedAt retained boots left)).2 := by
    have row := List.take_append_drop left (boots.take right)
    rw [split, front] at row
    rw [← after, ← List.foldl_cons, retainedAt, retainedAt, ← List.foldl_append, row]
  have keptBetween : CountersKept (nextBootCounter (retainedAt retained boots left)).2
      ((boots.take right).drop (left + 1)) := by
    have started := (kept.take right).drop left
    rw [split, same] at started
    rw [← after]
    exact started.tail
  have short : ((boots.take right).drop (left + 1)).length < boots.length := by
    rw [List.length_drop, List.length_take]
    omega
  generalize (boots.take right).drop (left + 1) = between at memory keptBetween short
  have counted : between.countP Boot.drawsCounter + 1 < 2 ^ 32 := by
    have bound : between.countP Boot.drawsCounter ≤ between.length := List.countP_le_length
    omega
  obtain ⟨consistent, value⟩ := retained_value_run between
    (next_boot_counter_consistent (retainedAt retained boots left)) keptBetween
  rw [memory, next_boot_counter_of_consistent consistent, value, next_boot_counter_value]
  generalize (nextBootCounter (retainedAt retained boots left)).1 = counter
  intro same
  have numbers := congrArg UInt32.toNat same
  rw [UInt32.toNat_add, UInt32.toNat_add, UInt32.toNat_ofNat'] at numbers
  have one : (1 : UInt32).toNat = 1 := rfl
  have small := counter.toNat_lt
  omega

/-! ## No replay -/

theorem teb_build_hello_counter (profile : Profile) (fields : HelloFields) :
    tebLoadU32Be (tebBuildHello profile fields) 16 = fields.bootCounter :=
  teb_load_u32_be_of_slice (teb_build_hello_layout profile fields).bootCounter

theorem Boot.hello_fields_some {boot : Boot profile} {retained : RetainedCounter}
    {fields : HelloFields} (built : boot.helloFields retained = some fields) :
    boot.drawsCounter = true ∧ fields.bootCounter = (nextBootCounter retained).1 := by
  rw [Boot.helloFields] at built
  split_ifs at built with draws
  cases built
  exact ⟨draws, rfl⟩

theorem Boot.sent_hello_some {boot : Boot profile} {retained : RetainedCounter} {hello : Bytes}
    (sent : boot.sentHello retained = some hello) :
    ∃ fields, boot.helloFields retained = some fields ∧ tebBuildHello profile fields = hello := by
  rw [Boot.sentHello] at sent
  split_ifs at sent
  exact Option.map_eq_some_iff.mp sent

theorem Boot.sent_hello_later {env : Environment profile} {retained : RetainedCounter}
    (ready : env.deviceReady = true) (line : sendHelloLine ∈ (clientMain env retained).1.console) :
    Boot.sentHello ⟨env, .later⟩ retained =
      some (tebBuildHello profile (bootHello env (nextBootCounter retained).1)) := by
  have draws : Boot.drawsCounter ⟨env, .later⟩ = true := by
    rw [Boot.drawsCounter, ready]
    rfl
  rw [Boot.sentHello, if_pos ⟨rfl, line⟩, Boot.helloFields, if_pos draws]
  rfl

theorem boot_counters_differ {retained : RetainedCounter} {boots : List (Boot profile)}
    (few : boots.length < 2 ^ 32) (kept : CountersKept retained boots) {left right : Nat}
    (leftInside : left < boots.length) (rightInside : right < boots.length) (different : left ≠ right)
    {leftFields rightFields : HelloFields}
    (leftBuilt : boots[left].helloFields (retainedAt retained boots left) = some leftFields)
    (rightBuilt : boots[right].helloFields (retainedAt retained boots right) =
      some rightFields) :
    leftFields.bootCounter ≠ rightFields.bootCounter := by
  obtain ⟨leftDraws, leftCounter⟩ := Boot.hello_fields_some leftBuilt
  obtain ⟨rightDraws, rightCounter⟩ := Boot.hello_fields_some rightBuilt
  rw [leftCounter, rightCounter]
  rcases Nat.lt_or_gt_of_ne different with order | order
  · exact counters_differ few kept order rightInside leftDraws
  · exact (counters_differ few kept order leftInside rightDraws).symm

theorem accepted_capsule_counter {env : Environment profile} {fields : HelloFields}
    {puf : PufSample} {capsule : Bytes} {trace : Trace}
    (accepted : (acceptCapsule env (tebBuildHello profile fields) fields puf capsule trace).2 = 0) :
    (loadedFields profile capsule).bootCounter = fields.bootCounter := by
  rcases accept_capsule_cases env (tebBuildHello profile fields) fields puf capsule trace
    (teb_build_hello_length profile fields) with ⟨gate, _⟩ | ⟨_, _, rejected⟩
  · exact gate.bootCounter
  · exact absurd accepted rejected

/-- **No replay.** Whatever the retained memory holds at first, over fewer than
2^32 warm resets of which none splits a counter from its check, no hello goes out
twice and no capsule is accepted twice. -/
theorem no_replay_across_warm_resets (retained : RetainedCounter) (boots : List (Boot profile))
    (few : boots.length < 2 ^ 32) (kept : CountersKept retained boots) (left right : Nat)
    (leftInside : left < boots.length) (rightInside : right < boots.length)
    (different : left ≠ right) :
    (∀ hello, boots[left].sentHello (retainedAt retained boots left) = some hello →
      boots[right].sentHello (retainedAt retained boots right) ≠ some hello) ∧
    ∀ leftFields rightFields,
      boots[left].helloFields (retainedAt retained boots left) = some leftFields →
      boots[right].helloFields (retainedAt retained boots right) = some rightFields →
      ∀ capsule leftTrace rightTrace,
        (acceptCapsule boots[left].env (tebBuildHello profile leftFields) leftFields
          boots[left].env.puf capsule leftTrace).2 = 0 →
        (acceptCapsule boots[right].env (tebBuildHello profile rightFields) rightFields
          boots[right].env.puf capsule rightTrace).2 ≠ 0 := by
  constructor
  · intro hello leftSent rightSent
    obtain ⟨leftFields, leftBuilt, leftHello⟩ := Boot.sent_hello_some leftSent
    obtain ⟨rightFields, rightBuilt, rightHello⟩ := Boot.sent_hello_some rightSent
    apply boot_counters_differ few kept leftInside rightInside different leftBuilt rightBuilt
    rw [← teb_build_hello_counter profile leftFields, leftHello, ← rightHello,
      teb_build_hello_counter]
  · intro leftFields rightFields leftBuilt rightBuilt capsule leftTrace rightTrace leftAccepts
      rightAccepts
    apply boot_counters_differ few kept leftInside rightInside different leftBuilt rightBuilt
    rw [← accepted_capsule_counter leftAccepts, accepted_capsule_counter rightAccepts]

end Boot

/-- Three boots, the second one reset with `stores` of its three stores done. -/
def resetBoots (stores : Fin 3) : List (Boot .pqMlkem512Mldsa44) :=
  [⟨plainEnvironment .pqMlkem512Mldsa44, .later⟩,
    ⟨plainEnvironment .pqMlkem512Mldsa44, .inCounter stores⟩,
    ⟨plainEnvironment .pqMlkem512Mldsa44, .later⟩]

theorem magic_reset_boots_kept (retained : RetainedCounter) :
    CountersKept retained (resetBoots 1) := by
  intro index inside _
  match index, inside with
  | 0, _ => exact Bool.false_ne_true
  | 1, _ => exact Bool.false_ne_true
  | 2, _ => exact Bool.false_ne_true

/-- From garbage and over a reset behind the magic, the first and the third boot
send different hellos. -/
theorem hellos_after_garbage_differ :
    (∀ hello, (resetBoots 1)[0].sentHello (retainedAt ⟨7, 7, 7⟩ (resetBoots 1) 0) = some hello →
      (resetBoots 1)[2].sentHello (retainedAt ⟨7, 7, 7⟩ (resetBoots 1) 2) ≠ some hello) ∧
    ∀ leftFields rightFields,
      (resetBoots 1)[0].helloFields (retainedAt ⟨7, 7, 7⟩ (resetBoots 1) 0) = some leftFields →
      (resetBoots 1)[2].helloFields (retainedAt ⟨7, 7, 7⟩ (resetBoots 1) 2) = some rightFields →
      ∀ capsule leftTrace rightTrace,
        (acceptCapsule (resetBoots 1)[0].env (tebBuildHello .pqMlkem512Mldsa44 leftFields)
          leftFields (resetBoots 1)[0].env.puf capsule leftTrace).2 = 0 →
        (acceptCapsule (resetBoots 1)[2].env (tebBuildHello .pqMlkem512Mldsa44 rightFields)
          rightFields (resetBoots 1)[2].env.puf capsule rightTrace).2 ≠ 0 :=
  no_replay_across_warm_resets ⟨7, 7, 7⟩ (resetBoots 1) (by decide) (magic_reset_boots_kept _) 0 2
    (by decide) (by decide) (by decide)

/-- The second boot is reset between its value and its check: the third one starts
again at 1 and sends the first one's hello. -/
theorem cut_counter_repeats_hello :
    ¬∀ (profile : Profile) (retained : RetainedCounter) (boots : List (Boot profile)),
      boots.length < 2 ^ 32 → ∀ (left right : Nat) (leftInside : left < boots.length)
        (rightInside : right < boots.length), left ≠ right →
        ∀ hello, boots[left].sentHello (retainedAt retained boots left) = some hello →
          boots[right].sentHello (retainedAt retained boots right) ≠ some hello := by
  intro fresh
  have drawn : retainedAt ⟨7, 7, 7⟩ (resetBoots 2) 2 =
      ⟨tebCounterMagic, 2, 1 ^^^ tebCounterMagic⟩ := by decide
  have sent (retained : RetainedCounter) (one : (nextBootCounter retained).1 = 1)
      (line : sendHelloLine ∈
        (clientMain (plainEnvironment .pqMlkem512Mldsa44) retained).1.console) :
      Boot.sentHello ⟨plainEnvironment .pqMlkem512Mldsa44, .later⟩ retained =
        some (tebBuildHello .pqMlkem512Mldsa44
          (bootHello (plainEnvironment .pqMlkem512Mldsa44) 1)) := by
    rw [Boot.sent_hello_later rfl line, one]
  apply fresh .pqMlkem512Mldsa44 ⟨7, 7, 7⟩ (resetBoots 2) (by decide) 0 2 (by decide) (by decide)
    (by decide)
  · exact sent _ (by decide) (by decide +kernel)
  · rw [drawn]
    exact sent _ (by decide) (by decide +kernel)

end BootEntropy.Capsule
