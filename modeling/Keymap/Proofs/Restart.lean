import Keymap.Proofs.Steps

/-! Starting a listener again. One flag stands both for a reader that was asked to end and for a
reader that lives, so a start behind a stop is accepted also while the old reader waits for a line.
A listener has one reader at a time exactly when nobody starts it again so early. -/
namespace Keymap.Replay.Listener

inductive Move where
  | start (input : List UInt8) (ended : Bool) (refusal : Option String)
  | stop
  /-- A step of the reader that was started as number `i`. -/
  | step (i : Nat)
  /-- Bytes arrive for a reader; no bytes are the end of its input. -/
  | arrive (i : Nat) (bytes : List UInt8)
  /-- A delivery is taken off the channel. -/
  | receive
  | close

def perform (l : Listener) : Move → Listener
  | .start input ended refusal => (l.start input ended refusal).1
  | .stop => l.stop
  | .step i => (l.step? i).getD l
  | .arrive i bytes =>
    { l with readers := l.readers.modify i fun r =>
        if bytes = [] then { r with ended := true } else { r with input := r.input ++ bytes } }
  | .receive => { l with channel := { l.channel with queue := l.channel.queue.tail } }
  | .close => l.close

/-- The listener behind a history, in which the latest move stands first. -/
def after (capacity : Nat) : List Move → Listener
  | [] => .new capacity
  | move :: past => (after capacity past).perform move

/-- Reader number `i` was started and has not ended. -/
def lives (l : Listener) (i : Nat) : Bool := l.readers[i]?.any Reader.isAlive

def puts (l : Listener) : Move → List (Nat × Delivery)
  | .step i => ((l.perform (.step i)).channel.queue.drop l.channel.queue.length).map (i, ·)
  | _ => []

def forwarded (capacity : Nat) : List Move → List (Nat × Delivery)
  | [] => []
  | move :: past => forwarded capacity past ++ (after capacity past).puts move

/-- Whoever starts a reader behind a stop has waited until the readers of that time have ended. -/
def Patient (capacity : Nat) (past : List Move) : Prop :=
  ∀ later input ended middle before,
    past = later ++ .start input ended none :: (middle ++ .stop :: before) →
    ∀ i < (after capacity before).readers.length,
      (after capacity (middle ++ .stop :: before)).lives i = false

def IsAlone (l : Listener) : Prop := ∀ i j, l.lives i → l.lives j → i = j

variable {l next : Listener} {move : Move} {capacity i : Nat} {past : List Move}

theorem lives_iff : l.lives i ↔ ∃ r, l.readers[i]? = some r ∧ r.isAlive = true :=
  Option.any_eq_true _ _

theorem lives_lt (living : l.lives i) : i < l.readers.length := by
  obtain ⟨r, here, _⟩ := lives_iff.mp living
  exact (List.getElem?_eq_some_iff.mp here).1

/-- What a move means for the flag and for the readers that live. -/
inductive Effect (l next : Listener) : Move → Prop where
  | start {input : List UInt8} {ended : Bool} (idle : l.running = false)
      (running : next.running = true) (size : next.readers.length = l.readers.length + 1)
      (lives : ∀ i, next.lives i ↔ l.lives i ∨ i = l.readers.length) :
      Effect l next (.start input ended none)
  | stop (running : next.running = false) (size : next.readers.length = l.readers.length)
      (lives : ∀ i, next.lives i = l.lives i) : Effect l next .stop
  | leave {i : Nat} (living : l.lives i) (running : next.running = false)
      (size : next.readers.length = l.readers.length)
      (lives : ∀ j, next.lives j ↔ l.lives j ∧ j ≠ i) : Effect l next (.step i)
  | keep {move : Move} (running : next.running = l.running)
      (size : next.readers.length = l.readers.length)
      (lives : ∀ i, next.lives i = l.lives i)
      (refused : ∀ input ended, move = .start input ended none → l.running = true) :
      Effect l next move

/-- A start that fails says why, and leaves everything as it was. -/
theorem start_eq_error {input : List UInt8} {ended : Bool} {refusal : Option String}
    {error : ListenerError} : (l.start input ended refusal).2 = .error error ↔
      (l.start input ended refusal).1 = l ∧
      (error = .alreadyRunning ∧ l.running = true ∨
        ∃ reason, error = .threadSpawn reason ∧ refusal = some reason ∧ l.running = false) := by
  obtain ⟨running, readers, channel, isKept⟩ := l
  cases running <;> cases refusal <;> simp [Listener.start, eq_comm]

theorem start_eq_ok {input : List UInt8} {ended : Bool} {refusal : Option String} :
    (l.start input ended refusal).2 = .ok () ↔ refusal = none ∧ l.running = false := by
  cases running : l.running <;> cases refusal <;> simp [Listener.start, running]

theorem start_effect (l : Listener) (input : List UInt8) (ended : Bool) (refusal : Option String) :
    Effect l (l.perform (.start input ended refusal)) (.start input ended refusal) := by
  rw [perform]
  cases answer : (l.start input ended refusal).2 with
  | error =>
    obtain ⟨same, reasons⟩ := start_eq_error.mp answer
    rw [same]
    refine .keep rfl rfl (fun _ => rfl) ?_
    rintro _ _ ⟨⟩
    rcases reasons with ⟨_, busy⟩ | ⟨_, _, granted, _⟩
    · exact busy
    · contradiction
  | ok =>
    obtain ⟨rfl, idle⟩ := start_eq_ok.mp answer
    have started : (l.start input ended none).1 =
        { l with running := true, readers := l.readers ++ [{ input := input, ended := ended }] } := by
      simp [Listener.start, idle]
    rw [started]
    refine .start idle rfl (List.length_append ..) fun i => ?_
    rw [lives_iff, lives_iff]
    simp only [List.getElem?_append, List.getElem?_singleton]
    split
    next below => simp [Nat.ne_of_lt below]
    next above =>
      have none : l.readers[i]? = none := List.getElem?_eq_none (Nat.le_of_not_lt above)
      by_cases same : i = l.readers.length
      · simp [same, Reader.isAlive]
      · have beyond : i - l.readers.length ≠ 0 := by omega
        simp [none, same, beyond]

theorem arrive_effect (l : Listener) (j : Nat) (bytes : List UInt8) :
    Effect l (l.perform (.arrive j bytes)) (.arrive j bytes) := by
  refine .keep rfl (List.length_modify ..) (fun i => ?_) nofun
  rw [lives, lives, perform, List.getElem?_modify]
  cases l.readers[i]? with
  | none => rfl
  | some r =>
    simp only [Option.map_eq_map, Option.map_some, Option.any_some]
    split
    · split <;> rfl
    · rfl

/-- A reader lives on and leaves the flag alone, or it ends and clears it. -/
theorem ends_or_stays {r r' : Reader} (step : ReaderStep l r r' next) :
    (r'.isAlive = true ∧ next.running = l.running) ∨
      (r'.isAlive = false ∧ next.running = false) := by
  cases step with
  | @check line stage =>
    refine .inl ⟨?_, rfl⟩
    cases line with
    | none => rfl
    | some line =>
      cases running : l.running with
      | false => rfl
      | true => by_cases blank : Text.trim line = "" <;> simp [check, Reader.isAlive, blank]
  | leave stage => exact .inr ⟨rfl, rfl⟩
  | _ => exact .inl ⟨by simp [Reader.isAlive, *], rfl⟩

theorem step?_split (moved : l.step? i = some next) :
    ∃ r r' after, l.readers[i]? = some r ∧ ReaderStep l r r' after ∧
      { after with readers := after.readers.set i r' } = next := by
  unfold step? at moved
  split at moved
  · contradiction
  next r here =>
    obtain ⟨⟨r', after⟩, stepped, rfl⟩ := Option.map_eq_some_iff.mp moved
    exact ⟨r, r', after, here, stepReader?_eq_some.mp stepped, rfl⟩

theorem step_effect (l : Listener) (i : Nat) :
    Effect l (l.perform (.step i)) (.step i) := by
  rw [perform]
  cases moved : l.step? i with
  | none => exact .keep rfl rfl (fun _ => rfl) nofun
  | some next =>
    rw [Option.getD_some]
    obtain ⟨r, r', after, here, step, rfl⟩ := step?_split moved
    have readers := step.frame.2.1
    have living : l.lives i := lives_iff.mpr ⟨r, here, step.alive⟩
    have lives (j : Nat) : lives { after with readers := after.readers.set i r' } j =
        if j = i then r'.isAlive else l.lives j := by
      rw [Listener.lives, readers, List.getElem?_set]
      by_cases same : i = j
      · subst same
        simp [lives_lt living]
      · simp [same, Ne.symm same, Listener.lives]
    have size : (after.readers.set i r').length = l.readers.length := by
      rw [List.length_set, readers]
    rcases ends_or_stays step with ⟨alive, running⟩ | ⟨gone, running⟩
    · refine .keep running size (fun j => ?_) nofun
      rw [lives]
      split
      next same => rw [same, living, alive]
      next => rfl
    · refine .leave living running size fun j => ?_
      rw [lives]
      by_cases same : j = i <;> simp [same, gone]

theorem perform_effect (l : Listener) (move : Move) : Effect l (l.perform move) move := by
  cases move with
  | start input ended refusal => exact start_effect l input ended refusal
  | stop => exact .stop rfl rfl fun _ => rfl
  | step i => exact step_effect l i
  | arrive i bytes => exact arrive_effect l i bytes
  | receive => exact .keep rfl rfl (fun _ => rfl) nofun
  | close => exact .keep rfl rfl (fun _ => rfl) nofun

theorem Effect.size_le (effect : Effect l next move) :
    l.readers.length ≤ next.readers.length := by
  cases effect <;> omega

/-- A reader that has ended stays so. -/
theorem Effect.lived (effect : Effect l next move) (old : i < l.readers.length)
    (living : next.lives i) : l.lives i := by
  cases effect with
  | start _ _ _ lives =>
    rcases (lives i).mp living with before | new
    · exact before
    · omega
  | stop _ _ lives => rwa [← lives]
  | leave _ _ _ lives => exact ((lives i).mp living).1
  | keep _ _ lives _ => rwa [← lives]

/-- While the flag is clear a start is accepted, whoever lives. -/
theorem Effect.accepted {input : List UInt8} {ended : Bool}
    (effect : Effect l next (.start input ended none)) (idle : l.running = false) :
    next.lives l.readers.length ∧ ∀ i, l.lives i → next.lives i := by
  cases effect with
  | start _ _ _ lives =>
    exact ⟨(lives _).mpr (.inr rfl), fun i living => (lives i).mpr (.inl living)⟩
  | keep _ _ _ refused =>
    rw [refused input ended rfl] at idle
    contradiction

theorem Effect.idle (effect : Effect l next move) (idle : l.running = false) :
    next.running = false ∨ ∃ input ended, move = .start input ended none := by
  cases effect with
  | start => exact .inr ⟨_, _, rfl⟩
  | stop running => exact .inl running
  | leave _ running => exact .inl running
  | keep running => exact .inl (running.trans idle)

theorem size_mono (capacity : Nat) (newer older : List Move) :
    (after capacity older).readers.length ≤ (after capacity (newer ++ older)).readers.length := by
  induction newer with
  | nil => exact Nat.le_refl _
  | cons move newer ih => exact Nat.le_trans ih (perform_effect _ move).size_le

theorem Patient.tail (patient : Patient capacity (move :: past)) : Patient capacity past := by
  intro later input ended middle before split
  exact patient (move :: later) input ended middle before (by rw [split]; rfl)

theorem Patient.older {newer older : List Move} (patient : Patient capacity (newer ++ older)) :
    Patient capacity older := by
  induction newer with
  | nil => exact patient
  | cons move newer ih => exact ih patient.tail

/-- What patience gives: the reader that lives is the one started last, and while it lives the flag
is set unless a stop has asked it to end. -/
structure Orderly (capacity : Nat) (past : List Move) (l : Listener) : Prop where
  last : ∀ i, l.lives i → i + 1 = l.readers.length
  busy : l.running = true → ∃ i, l.lives i
  asked : l.running = false → ∀ i, l.lives i → ∃ middle before,
    past = middle ++ .stop :: before ∧ i < (after capacity before).readers.length

theorem Orderly.nobody {input : List UInt8} {ended : Bool}
    (orderly : Orderly capacity past (after capacity past))
    (patient : Patient capacity (.start input ended none :: past))
    (idle : (after capacity past).running = false) (i : Nat) :
    (after capacity past).lives i = false := by
  rw [Bool.eq_false_iff]
  intro living
  obtain ⟨middle, before, rfl, old⟩ := orderly.asked idle i living
  have gone := patient [] input ended middle before rfl i old
  rw [living] at gone
  contradiction

theorem Orderly.follow (orderly : Orderly capacity past (after capacity past))
    (patient : Patient capacity (move :: past)) (effect : Effect (after capacity past) next move) :
    Orderly capacity (move :: past) next := by
  cases effect with
  | start idle running size lives =>
    have nobody := orderly.nobody patient idle
    refine ⟨fun i living => ?_, fun _ => ⟨_, (lives _).mpr (.inr rfl)⟩, fun idle => ?_⟩
    · rcases (lives i).mp living with before | new
      · rw [nobody i] at before
        contradiction
      · rw [size, new]
    · rw [running] at idle
      contradiction
  | stop running size lives =>
    refine ⟨fun i living => ?_, fun busy => ?_, fun _ i living => ?_⟩
    · rw [size]
      exact orderly.last i (by rwa [← lives])
    · rw [running] at busy
      contradiction
    · rw [lives] at living
      exact ⟨[], past, rfl, lives_lt living⟩
  | @leave i living running size lives =>
    -- The reader that ends was the only one.
    have nobody (j : Nat) : ¬next.lives j := by
      intro other
      obtain ⟨before, differ⟩ := (lives j).mp other
      have := orderly.last i living
      have := orderly.last j before
      omega
    refine ⟨fun j other => absurd other (nobody j), fun busy => ?_,
      fun _ j other => absurd other (nobody j)⟩
    rw [running] at busy
    contradiction
  | keep running size lives refused =>
    refine ⟨fun i living => ?_, fun busy => ?_, fun idle i living => ?_⟩
    · rw [size]
      exact orderly.last i (by rwa [← lives])
    · obtain ⟨i, living⟩ := orderly.busy (running.symm.trans busy)
      exact ⟨i, by rwa [lives]⟩
    · obtain ⟨middle, before, rfl, old⟩ :=
        orderly.asked (running.symm.trans idle) i (by rwa [← lives])
      exact ⟨move :: middle, before, rfl, old⟩

theorem Patient.orderly (patient : Patient capacity past) :
    Orderly capacity past (after capacity past) := by
  induction past with
  | nil =>
    refine ⟨fun i living => ?_, nofun, fun _ i living => ?_⟩
    · exact absurd (lives_lt living) (Nat.not_lt_zero i)
    · exact absurd (lives_lt living) (Nat.not_lt_zero i)
  | cons move past ih => exact (ih patient.tail).follow patient (perform_effect _ move)

theorem Orderly.isAlone (orderly : Orderly capacity past l) : l.IsAlone := by
  intro i j living other
  have := orderly.last i living
  have := orderly.last j other
  omega

/-- A flag that a stop has cleared stays clear while a reader of that time lives, unless a second
reader is started beside it. -/
theorem stays_clear {middle before : List Move}
    (alone : ∀ older, older <:+ middle ++ .stop :: before → (after capacity older).IsAlone)
    (old : i < (after capacity before).readers.length)
    (living : (after capacity (middle ++ .stop :: before)).lives i) :
    (after capacity (middle ++ .stop :: before)).running = false := by
  induction middle with
  | nil => rfl
  | cons move middle ih =>
    have effect := perform_effect (after capacity (middle ++ .stop :: before)) move
    have known : i < (after capacity (middle ++ .stop :: before)).readers.length := by
      have grown := size_mono capacity (middle ++ [.stop]) before
      rw [List.append_assoc] at grown
      exact Nat.lt_of_lt_of_le old grown
    have lived := effect.lived known living
    have idle := ih (fun older later => alone older (later.trans (List.suffix_cons ..))) lived
    rcases effect.idle idle with clear | ⟨input, ended, rfl⟩
    · exact clear
    · have second := (effect.accepted idle).1
      have same := alone _ (List.suffix_refl _) i _ living second
      omega

theorem patient_of_alone
    (alone : ∀ older, older <:+ past → (after capacity older).IsAlone) : Patient capacity past := by
  rintro later input ended middle before rfl i old
  rw [Bool.eq_false_iff]
  intro living
  have early (older : List Move)
      (suffix : older <:+ .start input ended none :: (middle ++ .stop :: before)) :
      (after capacity older).IsAlone := alone older (suffix.trans (List.suffix_append ..))
  have idle := stays_clear
    (fun older suffix => early older (suffix.trans (List.suffix_cons ..))) old living
  obtain ⟨second, kept⟩ := (perform_effect (after capacity (middle ++ .stop :: before))
    (.start input ended none)).accepted idle
  have same := early _ (List.suffix_refl _) i _ (kept i living) second
  have := lives_lt living
  omega

/-- Only a reader that lives puts something on the channel. -/
theorem lives_of_puts {sent : Nat × Delivery} (put : sent ∈ l.puts move) : l.lives sent.1 := by
  cases move with
  | step i =>
    obtain ⟨delivery, new, rfl⟩ := List.mem_map.mp put
    cases moved : l.step? i with
    | none =>
      rw [perform, moved, Option.getD_none, List.drop_length] at new
      contradiction
    | some next =>
      obtain ⟨r, _, _, here, step, _⟩ := step?_split moved
      exact lives_iff.mpr ⟨r, here, step.alive⟩
  | _ => contradiction

theorem forwarded_lt {sent : Nat × Delivery} (member : sent ∈ forwarded capacity past) :
    sent.1 < (after capacity past).readers.length := by
  induction past with
  | nil => contradiction
  | cons move past ih =>
    have grown := (perform_effect (after capacity past) move).size_le
    rcases List.mem_append.mp member with before | put
    · exact Nat.lt_of_lt_of_le (ih before) grown
    · exact Nat.lt_of_lt_of_le (lives_lt (lives_of_puts put)) grown

/-- One reader has put everything on the channel before the next one begins. -/
theorem Patient.forwarded (patient : Patient capacity past) :
    (forwarded capacity past).Pairwise fun sent later => sent.1 ≤ later.1 := by
  induction past with
  | nil => exact List.Pairwise.nil
  | cons move past ih =>
    have last := patient.tail.orderly.last
    rw [Listener.forwarded, List.pairwise_append]
    refine ⟨ih patient.tail, List.pairwise_of_forall_mem_list fun sent put later put' => ?_,
      fun sent before later put => ?_⟩
    · have := last _ (lives_of_puts put)
      have := last _ (lives_of_puts put')
      omega
    · have := forwarded_lt before
      have := last _ (lives_of_puts put)
      omega

/-- Behind patience a start is accepted exactly when no reader lives, and else refused. -/
theorem Patient.start_answer {input : List UInt8} {ended : Bool}
    (patient : Patient capacity (.start input ended none :: past)) :
    (((after capacity past).start input ended none).2 = .ok () ↔
      ∀ i, (after capacity past).lives i = false) ∧
    (((after capacity past).start input ended none).2 = .error .alreadyRunning ↔
      ∃ i, (after capacity past).lives i) := by
  have orderly := patient.tail.orderly
  constructor
  · rw [start_eq_ok]
    refine ⟨fun idle => orderly.nobody patient idle.2, fun nobody => ⟨rfl, ?_⟩⟩
    rw [Bool.eq_false_iff]
    intro busy
    obtain ⟨i, living⟩ := orderly.busy busy
    rw [nobody i] at living
    contradiction
  · refine ⟨fun refused => ?_, fun ⟨i, living⟩ => ?_⟩
    · obtain ⟨_, ⟨_, busy⟩ | ⟨_, differ, _⟩⟩ := start_eq_error.mp refused
      · exact orderly.busy busy
      · contradiction
    · have busy : (after capacity past).running = true := by
        rw [← Bool.not_eq_false]
        intro idle
        rw [orderly.nobody patient idle i] at living
        contradiction
      simp [Listener.start, busy]

/-- A reader whose step clears the flag was the only one, and ends by it. -/
theorem Patient.nobody_left (patient : Patient capacity (.step i :: past))
    (running : (after capacity past).running = true)
    (cleared : (after capacity (.step i :: past)).running = false) (j : Nat) :
    (after capacity (.step i :: past)).lives j = false := by
  rw [Bool.eq_false_iff]
  intro other
  have effect : Effect (after capacity past) (after capacity (.step i :: past)) (.step i) :=
    perform_effect ..
  cases effect with
  | leave living _ _ lives =>
    obtain ⟨before, differ⟩ := (lives j).mp other
    exact differ (patient.tail.orderly.isAlone j i before living)
  | keep same _ _ _ =>
    have still := same.symm.trans cleared
    rw [running] at still
    contradiction

/-- A listener has one reader at a time exactly when everybody who starts a reader behind a stop
has waited for the readers of that time to end. Then a start is accepted exactly when no reader
lives and is refused otherwise, the deliveries of one reader never mix with those of another, and a
reader that ends and clears the flag leaves no other reader behind. A start that fails, because the
flag is set or because there is no thread to be had, says which and leaves everything as it was. -/
theorem alone_iff_patient (capacity : Nat) (past : List Move) :
    (Patient capacity past ↔ ∀ older, older <:+ past → (after capacity older).IsAlone) ∧
    (Patient capacity past →
      (∀ later input ended older, past = later ++ .start input ended none :: older →
        let l := after capacity older
        ((l.start input ended none).2 = .ok () ↔ ∀ i, l.lives i = false) ∧
        ((l.start input ended none).2 = .error .alreadyRunning ↔ ∃ i, l.lives i)) ∧
      (forwarded capacity past).Pairwise (fun sent later => sent.1 ≤ later.1) ∧
      ∀ later i older, past = later ++ .step i :: older →
        (after capacity older).running = true →
        (after capacity (.step i :: older)).running = false →
        ∀ j, (after capacity (.step i :: older)).lives j = false) ∧
    ∀ input ended refusal error,
      let l := after capacity past
      (l.start input ended refusal).2 = .error error ↔
        (l.start input ended refusal).1 = l ∧
        (error = .alreadyRunning ∧ l.running = true ∨
          ∃ reason, error = .threadSpawn reason ∧ refusal = some reason ∧ l.running = false) := by
  refine ⟨⟨?_, patient_of_alone⟩, fun patient => ⟨?_, patient.forwarded, ?_⟩,
    fun _ _ _ _ => start_eq_error⟩
  · rintro patient older ⟨newer, rfl⟩
    exact patient.older.orderly.isAlone
  · rintro later input ended older rfl
    exact patient.older.start_answer
  · rintro later i older rfl running cleared
    exact patient.older.nobody_left running cleared

/-- A reader forwards its line, is asked to end and does; then the next one is started. -/
def sampleRestart : List Move := [
  .start [] true none, .step 0, .step 0, .stop, .step 0, .step 0, .step 0,
  .start [97, 10] true none]

theorem alone_iff_patient_sample :
    Patient 1 sampleRestart ∧ (after 1 sampleRestart).lives 1 ∧
    ((after 1 sampleRestart.tail).start [] true none).2 = .ok () ∧
    (∀ i, (after 1 sampleRestart.tail).lives i = false) ∧
    (forwarded 1 sampleRestart).map Prod.fst = [0] := by
  have second : (after 1 sampleRestart).lives 1 := rfl
  have patient : Patient 1 sampleRestart := by
    refine (alone_iff_patient 1 sampleRestart).1.mpr fun older suffix i j living other => ?_
    rcases List.suffix_cons_iff.mp suffix with rfl | ⟨newer, early⟩
    · -- Of the two readers that were started the first is gone.
      have gone : (after 1 sampleRestart).lives 0 = false := rfl
      have two : (after 1 sampleRestart).readers.length = 2 := rfl
      have first (i : Nat) (living : (after 1 sampleRestart).lives i) : i = 1 := by
        have := lives_lt living
        have : i ≠ 0 := by
          rintro rfl
          exact Bool.false_ne_true (gone.symm.trans living)
        omega
      exact (first i living).trans (first j other).symm
    · have one : (after 1 (newer ++ older)).readers.length = 1 := by
        rw [early]
        decide +kernel
      have := size_mono 1 newer older
      have := lives_lt living
      have := lives_lt other
      omega
  obtain ⟨answers, _, _⟩ := (alone_iff_patient 1 sampleRestart).2.1 patient
  have accepted : ((after 1 sampleRestart.tail).start [] true none).2 = .ok () := rfl
  exact ⟨patient, second, accepted, (answers [] [] true sampleRestart.tail rfl).1.mp accepted,
    rfl⟩

/-- A reader waits for a line while it is asked to end and a second one is started; both then take
turns, until the first one ends and clears the flag of the second. -/
def sampleHaste : List Move := [
  .step 0, .step 0, .step 0, .step 0, .step 0, .step 1, .step 1, .step 1, .step 0, .step 0, .step 0,
  .arrive 0 [], .arrive 0 [97, 10, 97, 10], .start [97, 10] false none, .stop, .start [] false none]

theorem early_start_mixes_readers :
    ((after 3 (sampleHaste.drop 14)).start [97, 10] false none).2 = .ok () ∧
    (after 3 (sampleHaste.drop 14)).lives 0 ∧
    (forwarded 3 sampleHaste).map Prod.fst = [0, 1, 0] ∧
    (after 3 sampleHaste.tail).running = true ∧ (after 3 sampleHaste).running = false ∧
    (after 3 sampleHaste).lives 1 := by
  exact ⟨rfl, rfl, rfl, rfl, rfl, rfl⟩

end Keymap.Replay.Listener
