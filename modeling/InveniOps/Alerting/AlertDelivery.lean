import InveniOps.Lib.Lts
import InveniOps.Lib.ListFacts
import InveniOps.Alerting.Dispatcher

/-!
# The delivery of an alert

`dispatch`, `dispatchEscalation`, `fanOut`, `sendVia` and `recordDispatchMetric` of
`services/alerting/dispatcher.ts`, with the alert recorder of `utils/metrics.ts`.  A dispatch
that has claimed its alert sends it to every target notifier at once; the sends go on side
by side, each through its retries, its count in the recorder and its point for the metrics
writer.  Other dispatches of the process count in the same recorder.
-/

namespace InveniOps.Alerting

open Lib Domain Stores

/-- A notifier; what its `send` does is the environment's. -/
structure Notifier where
  name : String
deriving DecidableEq

/-- The notifier that prints its alerts. -/
def consoleNotifier : Notifier := ⟨"console"⟩

/-- `AlertDispatchPoint.outcome`. -/
inductive DeliveryOutcome
  | delivered | failed
deriving DecidableEq

/-- What `createAlertMetricsRecorder` keeps. -/
structure AlertMetricsRecorder where
  counts : String → DeliveryOutcome → ℕ
  escalationsTriggered : ℕ

namespace AlertMetricsRecorder

/-- A recorder that has recorded nothing. -/
def new : AlertMetricsRecorder := ⟨fun _ _ => 0, 0⟩

variable (metrics : AlertMetricsRecorder) (channel : String)

/-- One more delivery with an outcome on a channel. -/
def bump (key : DeliveryOutcome) : AlertMetricsRecorder :=
  { metrics with
    counts := fun name outcome =>
      metrics.counts name outcome + if name = channel ∧ outcome = key then 1 else 0 }

/-- One more alert delivered on a channel. -/
def recordDeliverySuccess : AlertMetricsRecorder := metrics.bump channel .delivered

/-- One more alert that a channel did not deliver. -/
def recordDeliveryFailure : AlertMetricsRecorder := metrics.bump channel .failed

/-- One more escalation triggered. -/
def recordEscalation : AlertMetricsRecorder :=
  { metrics with escalationsTriggered := metrics.escalationsTriggered + 1 }

end AlertMetricsRecorder

/-- The dispatcher with its notifiers and the attempts of its retries. -/
structure AlertDelivery where
  dispatcher : AlertDispatcher
  /-- `notifierRegistry.resolve`: a channel without a notifier is skipped. -/
  resolve : NotificationChannel → Option Notifier
  maxAttempts : ℕ

/-- The method that was called. -/
inductive DispatchCall
  | dispatch (eventType : AlertEventType)
  | dispatchEscalation
deriving DecidableEq

/-- What the metrics writer provider does. -/
inductive ProviderReply
  | throws
  | undefined
  | writer
deriving DecidableEq

/-- Where a call of `sendVia` is.  `behaved` is what the notifier did in the end; the code
does not keep it. -/
inductive SendPc
  /-- At `notifier.send`, in the given attempt of the retries. -/
  | sending (attempt : ℕ)
  /-- At the `catch`: the retries, or what came behind them, threw. -/
  | catching (behaved : DeliveryOutcome)
  /-- At `writer.recordAlertDispatches`, in the `catch` or in the `try`. -/
  | writing (behaved : DeliveryOutcome) (caught : Bool)
  | done (behaved : DeliveryOutcome) (caught : Bool)
  /-- The `catch` threw. -/
  | rejected (behaved : DeliveryOutcome)
deriving DecidableEq

namespace SendPc

/-- `retry` up to its first attempt: without attempts it throws. -/
def start (maxAttempts : ℕ) : SendPc := if maxAttempts < 1 then .catching .failed else .sending 1

/-- `recordDispatchMetric` up to its `await`; the provider is called outside of its `try`. -/
def afterProvider (behaved : DeliveryOutcome) (caught : Bool) : ProviderReply → SendPc
  | .throws => if caught then .rejected behaved else .catching behaved
  | .undefined => .done behaved caught
  | .writer => .writing behaved caught

/-- The send has settled without an error. -/
def isDone : SendPc → Bool
  | .done _ _ => true
  | _ => false

/-- The send has rejected. -/
def isRejected : SendPc → Bool
  | .rejected _ => true
  | _ => false

/-- What the call has counted, given what the notifier did and whether the `catch` ran. -/
def outcomes (behaved : DeliveryOutcome) (caught : Bool) : List DeliveryOutcome :=
  (if behaved = .delivered then [.delivered] else []) ++ if caught then [.failed] else []

/-- What the call has counted in the recorder so far. -/
def recorded : SendPc → List DeliveryOutcome
  | .sending _ => []
  | .catching behaved => outcomes behaved false
  | .writing behaved caught | .done behaved caught => outcomes behaved caught
  | .rejected behaved => outcomes behaved true

/-- How many steps a send has left at most. -/
def left (maxAttempts : ℕ) : SendPc → ℕ
  | .sending attempt => maxAttempts - attempt + 3
  | .catching _ => 2
  | .writing _ _ => 1
  | .done _ _ | .rejected _ => 0

/-- What the notifier did. -/
def behaved : SendPc → Option DeliveryOutcome
  | .sending _ => none
  | .catching behaved | .writing behaved _ | .done behaved _ | .rejected behaved => some behaved

end SendPc

/-- A call of `sendVia`. -/
structure SendVia where
  notifier : Notifier
  pc : SendPc
deriving DecidableEq

/-- Where a call of the dispatcher is. -/
inductive DispatchPc
  /-- At the claim in Redis. -/
  | claiming
  /-- At the `Promise.all` of `fanOut`. -/
  | fanOut
  /-- Returned; `dispatch` returns nothing. -/
  | returned (escalated : Bool)
deriving DecidableEq

/-- A call of `dispatch` or `dispatchEscalation`. -/
structure Dispatch where
  call : DispatchCall
  workItem : WorkItem
  metrics : AlertMetricsRecorder
  sends : List SendVia
  pc : DispatchPc

/-- What the environment decides about a call. -/
inductive DispatchEvent
  /-- The claim is answered, or Redis rejects. -/
  | claim (reply : Option Bool)
  /-- An attempt of the `k`-th send settles; behind a success the provider is called. -/
  | attempt (k : ℕ) (ok : Bool) (provider : ProviderReply)
  /-- The `catch` of the `k`-th send runs. -/
  | fail (k : ℕ) (provider : ProviderReply)
  /-- The write of the `k`-th send's point settles. -/
  | written (k : ℕ) (ok : Bool)
  /-- The `Promise.all` settles. -/
  | settle
  /-- Another dispatch of the process counts an outcome. -/
  | other (channel : String) (outcome : DeliveryOutcome)

/-- The event is a step of the dispatch itself. -/
def DispatchEvent.isOwn : DispatchEvent → Bool
  | .other _ _ => false
  | _ => true

namespace AlertDelivery

variable (delivery : AlertDelivery)

/-- The alert that a call sends. -/
def alert (workItem : WorkItem) : DispatchCall → Alert
  | .dispatch eventType => delivery.dispatcher.alert workItem eventType
  | .dispatchEscalation => delivery.dispatcher.escalationAlert workItem

/-- `targets` of `fanOut`. -/
def targets (alert : Alert) : List Notifier :=
  consoleNotifier :: alert.channels.filterMap delivery.resolve

end AlertDelivery

namespace Dispatch

/-- A call that has just been made. -/
def start (call : DispatchCall) (workItem : WorkItem) (metrics : AlertMetricsRecorder) : Dispatch :=
  ⟨call, workItem, metrics, [], .claiming⟩

variable (delivery : AlertDelivery) (s : Dispatch)

/-- Behind a claim that is answered with `true`. -/
def onClaimed : Dispatch :=
  { s with
    sends := (delivery.targets (delivery.alert s.workItem s.call)).map fun notifier =>
      ⟨notifier, .start delivery.maxAttempts⟩
    pc := .fanOut }

/-- The caller behind a `Promise.all` that resolved. -/
def onFannedOut : Dispatch :=
  { s with
    metrics :=
      if s.call = .dispatchEscalation then s.metrics.recordEscalation else s.metrics
    pc := .returned (s.call = .dispatchEscalation) }

/-- One step of a call; a call that has returned takes none. -/
def step : Dispatch → DispatchEvent → Option Dispatch
  | s, .claim reply =>
    match s.pc with
    | .claiming =>
      match reply with
      | some true => some (s.onClaimed delivery)
      | _ => some { s with pc := .returned false }
    | _ => none
  | s, .attempt k ok provider =>
    match s.sends[k]? with
    | some ⟨notifier, .sending attempt⟩ =>
      if ok then
        some { s with
          metrics := s.metrics.recordDeliverySuccess notifier.name
          sends := s.sends.set k ⟨notifier, .afterProvider .delivered false provider⟩ }
      else if attempt < delivery.maxAttempts then
        some { s with sends := s.sends.set k ⟨notifier, .sending (attempt + 1)⟩ }
      else some { s with sends := s.sends.set k ⟨notifier, .catching .failed⟩ }
    | _ => none
  | s, .fail k provider =>
    match s.sends[k]? with
    | some ⟨notifier, .catching behaved⟩ =>
      some { s with
        metrics := s.metrics.recordDeliveryFailure notifier.name
        sends := s.sends.set k ⟨notifier, .afterProvider behaved true provider⟩ }
    | _ => none
  | s, .written k _ =>
    match s.sends[k]? with
    | some ⟨notifier, .writing behaved caught⟩ =>
      -- a rejected write is logged
      some { s with sends := s.sends.set k ⟨notifier, .done behaved caught⟩ }
    | _ => none
  | s, .settle =>
    match s.pc with
    | .fanOut =>
      if s.sends.all (·.pc.isDone) then some s.onFannedOut
      else if s.sends.any (·.pc.isRejected) then some { s with pc := .returned false }
      else none
    | _ => none
  | s, .other channel outcome => some { s with metrics := s.metrics.bump channel outcome }

/-- A dispatch of a process as a transition system. -/
def lts : Lts Dispatch DispatchEvent := ⟨step delivery⟩

/-! ### The account of a dispatch -/

/-- The caller has returned and no send goes on. -/
def isOver : Bool :=
  (match s.pc with
    | .returned _ => true
    | _ => false) && s.sends.all fun send => send.pc.isDone || send.pc.isRejected

/-- How often the sends to a channel have counted an outcome. -/
def recordedBy (channel : String) (outcome : DeliveryOutcome) : ℕ :=
  (s.sends.map fun send =>
    if send.notifier.name = channel then send.pc.recorded.count outcome else 0).sum

/-- What the other dispatches of the process count. -/
def others (_ : Dispatch) : DispatchEvent → List (String × DeliveryOutcome)
  | .other channel outcome => [(channel, outcome)]
  | _ => []

/-- Each target counts once, as its notifier behaved, and an escalation that was fanned out
reports so. -/
structure Accounted : Prop where
  outcomes : ∀ send ∈ s.sends, ∃ behaved, send.pc.behaved = some behaved ∧
    send.pc.recorded = [behaved]
  escalated : s.call = .dispatchEscalation → s.sends ≠ [] → s.pc = .returned true

/-- The metrics writer provider does not throw behind a send that succeeded, and in an
escalation behind no send. -/
def ProviderAnswers : DispatchEvent → Prop
  | .attempt _ ok provider => ok = true → provider ≠ .throws
  | .fail _ provider => s.call = .dispatchEscalation → provider ≠ .throws
  | _ => True

instance (e : DispatchEvent) : Decidable (s.ProviderAnswers e) :=
  match e with
  | .attempt _ ok provider => inferInstanceAs (Decidable (ok = true → provider ≠ .throws))
  | .fail _ provider =>
    inferInstanceAs (Decidable (s.call = .dispatchEscalation → provider ≠ .throws))
  | .claim _ | .written _ _ | .settle | .other _ _ => isTrue trivial

/-- How many steps of its own the dispatch has left at most. -/
def left : ℕ :=
  (match s.pc with
    | .claiming =>
      (delivery.targets (delivery.alert s.workItem s.call)).length * (delivery.maxAttempts + 2) + 2
    | .fanOut => 1
    | .returned _ => 0) + (s.sends.map (·.pc.left delivery.maxAttempts)).sum

end Dispatch

namespace SendPc

/-- The count of a send is the one that its notifier's behaviour calls for, so far. -/
def Sound (call : DispatchCall) : SendPc → Prop
  | .sending _ => True
  | .catching behaved => behaved = .failed
  | .writing behaved caught | .done behaved caught => outcomes behaved caught = [behaved]
  | .rejected behaved => behaved = .failed ∧ call ≠ .dispatchEscalation

variable {call : DispatchCall} {behaved : DeliveryOutcome} {provider : ProviderReply}

lemma outcomes_caught : outcomes behaved true = [behaved] ↔ behaved = .failed := by
  cases behaved <;> decide

lemma sound_start (maxAttempts : ℕ) : (start maxAttempts).Sound call := by
  unfold start
  split_ifs
  · rfl
  · trivial

lemma recorded_start (maxAttempts : ℕ) : (start maxAttempts).recorded = [] := by
  unfold start
  split_ifs <;> rfl

/-- A provider that throws behind a success makes the send count a failure as well. -/
lemma sound_delivered : (afterProvider .delivered false provider).Sound call ↔
    provider ≠ .throws := by
  cases provider <;> simp [afterProvider, Sound, outcomes]

/-- A provider that throws in the `catch` makes the dispatch fail. -/
lemma sound_caught : (afterProvider behaved true provider).Sound call ↔
    behaved = .failed ∧ (call = .dispatchEscalation → provider ≠ .throws) := by
  cases provider <;> simp [afterProvider, Sound, outcomes_caught]

lemma recorded_afterProvider (caught : Bool) :
    (afterProvider behaved caught provider).recorded = outcomes behaved caught := by
  cases provider <;> cases caught <;> rfl

lemma isDone_of_isRejected {pc : SendPc} (h : pc.isRejected = true) : pc.isDone = false := by
  cases pc with
  | rejected => rfl
  | _ => cases h

/-- A send that has ended is sound if it has counted what its notifier did, and does not make
an escalation fail. -/
lemma sound_iff_of_ended {pc : SendPc} (hend : (pc.isDone || pc.isRejected) = true) :
    pc.Sound call ↔
      (∃ behaved, pc.behaved = some behaved ∧ pc.recorded = [behaved]) ∧
        (pc.isRejected = true → call ≠ .dispatchEscalation) := by
  cases pc with
  | done behaved caught => simp [Sound, SendPc.behaved, recorded, isRejected]
  | rejected behaved => simp [Sound, SendPc.behaved, recorded, isRejected, outcomes_caught]
  | _ => cases hend

/-- What a step of a send makes of it, with what it counts. -/
inductive Moves (maxAttempts : ℕ) :
    SendPc → DispatchEvent → SendPc → List DeliveryOutcome → Prop
  | delivered {k attempt : ℕ} {provider : ProviderReply} :
    Moves maxAttempts (.sending attempt) (.attempt k true provider)
      (.afterProvider .delivered false provider) [.delivered]
  | retried {k attempt : ℕ} {provider : ProviderReply} (left : attempt < maxAttempts) :
    Moves maxAttempts (.sending attempt) (.attempt k false provider) (.sending (attempt + 1)) []
  | exhausted {k attempt : ℕ} {provider : ProviderReply} (spent : ¬ attempt < maxAttempts) :
    Moves maxAttempts (.sending attempt) (.attempt k false provider) (.catching .failed) []
  | failed {k : ℕ} {behaved : DeliveryOutcome} {provider : ProviderReply} :
    Moves maxAttempts (.catching behaved) (.fail k provider)
      (.afterProvider behaved true provider) [.failed]
  | written {k : ℕ} {behaved : DeliveryOutcome} {caught ok : Bool} :
    Moves maxAttempts (.writing behaved caught) (.written k ok) (.done behaved caught) []

lemma left_start (maxAttempts : ℕ) : (start maxAttempts).left maxAttempts ≤ maxAttempts + 2 := by
  unfold start
  split_ifs <;> simp only [left] <;> omega

lemma left_afterProvider (behaved : DeliveryOutcome) (provider : ProviderReply)
    (maxAttempts : ℕ) (caught : Bool) :
    (afterProvider behaved caught provider).left maxAttempts ≤ if caught then 1 else 2 := by
  cases provider <;> cases caught <;> simp [afterProvider, left]

section

variable {maxAttempts : ℕ} {pc pc' : SendPc} {e : DispatchEvent} {counted : List DeliveryOutcome}

lemma Moves.recorded_eq (h : pc.Moves maxAttempts e pc' counted) :
    pc'.recorded = pc.recorded ++ counted := by
  cases h with
  | delivered => exact recorded_afterProvider false
  | retried => rfl
  | exhausted => rfl
  | failed =>
    rw [recorded_afterProvider]
    simp [recorded, outcomes]
  | written => exact (List.append_nil _).symm

lemma Moves.sound_iff (h : pc.Moves maxAttempts e pc' counted) {s : Dispatch} :
    pc'.Sound s.call ↔ pc.Sound s.call ∧ s.ProviderAnswers e := by
  cases h with
  | delivered =>
    rw [sound_delivered]
    simp [Sound, Dispatch.ProviderAnswers]
  | retried => simp [Sound, Dispatch.ProviderAnswers]
  | exhausted => simp [Sound, Dispatch.ProviderAnswers]
  | failed => exact sound_caught
  | written => exact (iff_of_eq (and_true _)).symm

/-- A send that has ended does not move. -/
lemma Moves.not_ended (h : pc.Moves maxAttempts e pc' counted) :
    pc.isDone = false ∧ pc.isRejected = false := by
  cases h <;> exact ⟨rfl, rfl⟩

lemma Moves.left_lt (h : pc.Moves maxAttempts e pc' counted) :
    pc'.left maxAttempts < pc.left maxAttempts := by
  cases h with
  | @delivered _ attempt provider =>
    have hle := left_afterProvider .delivered provider maxAttempts false
    have hleft : (sending attempt).left maxAttempts = maxAttempts - attempt + 3 := rfl
    rw [if_neg Bool.false_ne_true] at hle
    omega
  | retried hleft =>
    simp only [left]
    omega
  | exhausted =>
    simp only [left]
    omega
  | @failed _ behaved provider =>
    have hle := left_afterProvider behaved provider maxAttempts true
    have hleft : (catching behaved).left maxAttempts = 2 := rfl
    rw [if_pos rfl] at hle
    omega
  | written => exact Nat.one_pos

end

end SendPc

namespace Dispatch

variable {delivery : AlertDelivery} {s s' : Dispatch} {e : DispatchEvent}

/-- What an event does, by what it steps. -/
inductive Runs (delivery : AlertDelivery) (s : Dispatch) : DispatchEvent → Dispatch → Prop
  | claimed (claiming : s.pc = .claiming) : Runs delivery s (.claim (some true))
      (s.onClaimed delivery)
  | unclaimed {reply : Option Bool} (claiming : s.pc = .claiming) (no : reply ≠ some true) :
    Runs delivery s (.claim reply) { s with pc := .returned false }
  | moved {e : DispatchEvent} {k : ℕ} {notifier : Notifier} {pc pc' : SendPc}
      {counted : List DeliveryOutcome} (send : s.sends[k]? = some ⟨notifier, pc⟩)
      (moves : pc.Moves delivery.maxAttempts e pc' counted) :
    Runs delivery s e
      { s with
        metrics := counted.foldl (·.bump notifier.name ·) s.metrics
        sends := s.sends.set k ⟨notifier, pc'⟩ }
  | fannedOut (pc : s.pc = .fanOut) (done : s.sends.all (·.pc.isDone) = true) :
    Runs delivery s .settle s.onFannedOut
  | broken (pc : s.pc = .fanOut) (rejected : s.sends.any (·.pc.isRejected) = true) :
    Runs delivery s .settle { s with pc := .returned false }
  | other {channel : String} {outcome : DeliveryOutcome} :
    Runs delivery s (.other channel outcome)
      { s with metrics := s.metrics.bump channel outcome }

lemma runs_of_step (h : s.step delivery e = some s') : s.Runs delivery e s' := by
  cases e with
  | claim reply =>
    simp only [step] at h
    split at h
    · rename_i hpc
      split at h <;> cases h
      · exact .claimed hpc
      · rename_i hno
        exact .unclaimed hpc hno
    · cases h
  | attempt k ok provider =>
    simp only [step] at h
    split at h
    · rename_i notifier attempt hk
      split_ifs at h with hok hleft <;> cases h
      · exact hok ▸ .moved hk .delivered
      · exact (Bool.eq_false_of_not_eq_true hok) ▸ .moved hk (.retried hleft)
      · exact (Bool.eq_false_of_not_eq_true hok) ▸ .moved hk (.exhausted hleft)
    · cases h
  | fail k provider =>
    simp only [step] at h
    split at h <;> cases h
    rename_i hk
    exact .moved hk .failed
  | written k ok =>
    simp only [step] at h
    split at h <;> cases h
    rename_i hk
    exact .moved hk .written
  | settle =>
    simp only [step] at h
    split at h
    · rename_i hpc
      split_ifs at h with hdone hrejected <;> cases h
      · exact .fannedOut hpc hdone
      · exact .broken hpc hrejected
    · cases h
  | other channel outcome =>
    cases h
    exact .other

/-- The dispatch does not change what it delivers, and its progress says how its sends
stand. -/
structure Kept (call : DispatchCall) (workItem : WorkItem) (s : Dispatch) : Prop where
  call : s.call = call
  workItem : s.workItem = workItem
  fannedOut : s.call = .dispatchEscalation → s.pc = .returned true →
    ∀ send ∈ s.sends, send.pc.isDone = true
  broken : s.call = .dispatchEscalation → s.pc = .returned false → s.sends ≠ [] →
    ∃ send ∈ s.sends, send.pc.isRejected = true
  claiming : s.pc = .claiming → s.sends = []

variable {call : DispatchCall} {workItem : WorkItem}

lemma kept_start (metrics : AlertMetricsRecorder) :
    (start call workItem metrics).Kept call workItem := by
  refine ⟨rfl, rfl, ?_, ?_, fun _ => rfl⟩ <;> rintro - hpc <;> cases hpc

lemma kept_step (h : s.Kept call workItem) (hstep : s.Runs delivery e s') :
    s'.Kept call workItem := by
  cases hstep with
  | claimed => refine ⟨h.call, h.workItem, ?_, ?_, ?_⟩ <;> simp [onClaimed]
  | unclaimed hpc => exact ⟨h.call, h.workItem, by simp, by simp [h.claiming hpc], by simp⟩
  | moved hk hmoves =>
    obtain ⟨hdone, hrejected⟩ := hmoves.not_ended
    have hmem := List.mem_of_getElem? hk
    refine ⟨h.call, h.workItem, ?_, ?_, ?_⟩
    · intro hcall hpc
      have hall := h.fannedOut hcall hpc _ hmem
      rw [hdone] at hall
      cases hall
    · rintro hcall hpc -
      obtain ⟨send, hsend, hend⟩ := h.broken hcall hpc (List.ne_nil_of_mem hmem)
      rcases eq_or_mem_set_of_mem hk hsend ⟨_, _⟩ with rfl | hsend'
      · rw [hrejected] at hend
        cases hend
      · exact ⟨send, hsend', hend⟩
    · intro hpc
      rw [h.claiming hpc] at hk
      cases hk
  | fannedOut hpc hdone =>
    refine ⟨h.call, h.workItem, fun _ _ => List.all_eq_true.1 hdone, ?_, ?_⟩
    · intro hcall hreturned
      have hcall' : s.call = .dispatchEscalation := hcall
      simp [onFannedOut, hcall'] at hreturned
    · simp [onFannedOut]
  | broken hpc hrejected =>
    exact ⟨h.call, h.workItem, by simp, fun _ _ _ => List.any_eq_true.1 hrejected, by simp⟩
  | other => exact ⟨h.call, h.workItem, h.fannedOut, h.broken, h.claiming⟩

/-- A step keeps the sends sound exactly if the provider answers where it must. -/
lemma sound_step (h : s.Kept call workItem) (hstep : s.Runs delivery e s') :
    (∀ send ∈ s'.sends, send.pc.Sound s'.call) ↔
      (∀ send ∈ s.sends, send.pc.Sound s.call) ∧ s.ProviderAnswers e := by
  cases hstep with
  | claimed hpc =>
    simp only [onClaimed, h.claiming hpc, List.forall_mem_map, List.not_mem_nil, false_imp_iff,
      implies_true, true_and]
    exact ⟨fun _ => trivial, fun _ _ _ => SendPc.sound_start _⟩
  | unclaimed => exact (iff_of_eq (and_true _)).symm
  | moved hk hmoves => exact forall_mem_set_iff hk hmoves.sound_iff
  | fannedOut => exact (iff_of_eq (and_true _)).symm
  | broken => exact (iff_of_eq (and_true _)).symm
  | other => exact (iff_of_eq (and_true _)).symm

/-- Once a dispatch is over, its account is right if and only if its sends are sound. -/
lemma accounted_iff_sound (h : s.Kept call workItem) (hover : s.isOver = true) :
    s.Accounted ↔ ∀ send ∈ s.sends, send.pc.Sound s.call := by
  obtain ⟨hreturned, hends⟩ := Bool.and_eq_true_iff.1 hover
  have hsound : ∀ send ∈ s.sends, send.pc.Sound s.call ↔
      (∃ behaved, send.pc.behaved = some behaved ∧ send.pc.recorded = [behaved]) ∧
        (send.pc.isRejected = true → s.call ≠ .dispatchEscalation) :=
    fun send hsend => SendPc.sound_iff_of_ended (List.all_eq_true.1 hends send hsend)
  constructor
  · intro haccount send hsend
    refine (hsound send hsend).2 ⟨haccount.outcomes send hsend, fun hrejected hcall => ?_⟩
    have hescalated := haccount.escalated hcall (List.ne_nil_of_mem hsend)
    have hdone := h.fannedOut hcall hescalated send hsend
    rw [SendPc.isDone_of_isRejected hrejected] at hdone
    cases hdone
  · intro hall
    refine ⟨fun send hsend => ((hsound send hsend).1 (hall send hsend)).1, fun hcall hne => ?_⟩
    cases hpc : s.pc with
    | returned escalated =>
      cases escalated with
      | true => rfl
      | false =>
        obtain ⟨send, hsend, hrejected⟩ := h.broken hcall hpc hne
        exact absurd hcall (((hsound send hsend).1 (hall send hsend)).2 hrejected)
    | _ =>
      rw [hpc] at hreturned
      cases hreturned

/-! ### The counts of the recorder -/

lemma counts_foldl (counted : List DeliveryOutcome) (metrics : AlertMetricsRecorder)
    (name channel : String) (outcome : DeliveryOutcome) :
    (counted.foldl (·.bump name ·) metrics).counts channel outcome =
      metrics.counts channel outcome + if name = channel then counted.count outcome else 0 := by
  induction counted generalizing metrics with
  | nil => simp
  | cons key counted ih =>
    rw [List.foldl_cons, ih]
    by_cases hname : name = channel
    · subst hname
      by_cases hkey : outcome = key
      · simp [AlertMetricsRecorder.bump, hkey]
        omega
      · simp [AlertMetricsRecorder.bump, hkey, Ne.symm hkey]
    · simp [AlertMetricsRecorder.bump, hname, Ne.symm hname]

/-- The recorder moves with what the sends record and what other dispatches count. -/
lemma counts_step (h : s.Kept call workItem) (hstep : s.Runs delivery e s') (channel : String)
    (outcome : DeliveryOutcome) :
    s'.metrics.counts channel outcome + s.recordedBy channel outcome =
      s.metrics.counts channel outcome + s'.recordedBy channel outcome
        + (s.others e).count (channel, outcome) := by
  cases hstep with
  | claimed hpc =>
    simp [recordedBy, onClaimed, h.claiming hpc, others, Function.comp_def,
      SendPc.recorded_start]
  | unclaimed => rfl
  | @moved _ _ notifier pc pc' counted hk hmoves =>
    have hothers : s.others e = [] := by cases hmoves <;> rfl
    have hsum := sum_map_set hk ⟨notifier, pc'⟩ fun send =>
      if send.notifier.name = channel then send.pc.recorded.count outcome else 0
    simp only [hmoves.recorded_eq, List.count_append] at hsum
    rw [counts_foldl, hothers]
    simp only [recordedBy, List.count_nil]
    split_ifs at hsum ⊢ <;> omega
  | fannedOut =>
    have hcounts : s.onFannedOut.metrics.counts = s.metrics.counts := by
      simp only [onFannedOut]
      split_ifs <;> rfl
    rw [hcounts]
    rfl
  | broken => rfl
  | @other name key =>
    simp only [others, List.count_singleton, AlertMetricsRecorder.bump, recordedBy]
    by_cases hkey : channel = name ∧ outcome = key
    · simp [hkey]
      omega
    · have hne : ¬ (name = channel ∧ key = outcome) := by
        rintro ⟨rfl, rfl⟩
        exact hkey ⟨rfl, rfl⟩
      simp [hkey, hne]

/-! ### The end of a dispatch -/

lemma left_step (hstep : s.Runs delivery e s') :
    s'.left delivery + (if e.isOwn then 1 else 0) ≤ s.left delivery := by
  cases hstep with
  | claimed hpc =>
    have hsum : ∀ targets : List Notifier,
        (targets.map fun _ => (SendPc.start delivery.maxAttempts).left delivery.maxAttempts).sum ≤
          targets.length * (delivery.maxAttempts + 2) := by
      intro targets
      rw [List.map_const', List.sum_replicate_nat]
      exact Nat.mul_le_mul_left _ (SendPc.left_start _)
    have hle := hsum (delivery.targets (delivery.alert s.workItem s.call))
    simp only [left, onClaimed, hpc, List.map_map, Function.comp_def, DispatchEvent.isOwn, if_true]
    omega
  | unclaimed hpc =>
    simp only [left, hpc, DispatchEvent.isOwn, if_true]
    omega
  | @moved _ _ notifier pc pc' _ hk hmoves =>
    have hlt := hmoves.left_lt
    have hsum := sum_map_set hk ⟨notifier, pc'⟩ (·.pc.left delivery.maxAttempts)
    dsimp only at hsum
    simp only [left]
    split_ifs <;> omega
  | fannedOut hpc =>
    simp only [left, onFannedOut, hpc, DispatchEvent.isOwn, if_true]
    omega
  | broken hpc =>
    simp only [left, hpc, DispatchEvent.isOwn, if_true]
    omega
  | other => exact Nat.le_refl _

/-- A send that has not ended can step. -/
lemma exists_step_of_send {k : ℕ} {send : SendVia} (hk : s.sends[k]? = some send)
    (hend : (send.pc.isDone || send.pc.isRejected) = false) :
    ∃ e : DispatchEvent, e.isOwn = true ∧ (s.step delivery e).isSome := by
  obtain ⟨notifier, pc⟩ := send
  cases pc with
  | sending attempt =>
    refine ⟨.attempt k true .writer, rfl, ?_⟩
    simp [step, hk]
  | catching behaved =>
    refine ⟨.fail k .writer, rfl, ?_⟩
    simp [step, hk]
  | writing behaved caught =>
    refine ⟨.written k true, rfl, ?_⟩
    simp [step, hk]
  | done => cases hend
  | rejected => cases hend

/-- A dispatch that is not over can step. -/
lemma exists_step_of_not_over (hover : s.isOver = false) :
    ∃ e : DispatchEvent, e.isOwn = true ∧ (s.step delivery e).isSome := by
  by_cases hends : s.sends.all fun send => send.pc.isDone || send.pc.isRejected
  · cases hpc : s.pc with
    | claiming =>
      refine ⟨.claim none, rfl, ?_⟩
      simp [step, hpc]
    | returned =>
      simp [isOver, hpc, hends] at hover
    | fanOut =>
      by_cases hdone : s.sends.all (·.pc.isDone)
      · refine ⟨.settle, rfl, ?_⟩
        simp only [step, hpc, hdone, if_true, Option.isSome_some]
      · have hrejected : s.sends.any (·.pc.isRejected) := by
          obtain ⟨send, hsend, hnot⟩ : ∃ send ∈ s.sends, send.pc.isDone = false := by
            simpa using hdone
          have hend := List.all_eq_true.1 hends send hsend
          rw [hnot, Bool.false_or] at hend
          exact List.any_eq_true.2 ⟨send, hsend, hend⟩
        refine ⟨.settle, rfl, ?_⟩
        simp only [step, hpc, hrejected, if_true]
        split_ifs
        rfl
  · obtain ⟨send, hsend, hend⟩ : ∃ send ∈ s.sends,
        (send.pc.isDone || send.pc.isRejected) = false := by
      simpa using hends
    obtain ⟨k, hk⟩ := List.mem_iff_getElem?.1 hsend
    exact exists_step_of_send hk hend

/-- A dispatch that has claimed its alert sends it to every target. -/
lemma targets_of_run {metrics : AlertMetricsRecorder} {es : List DispatchEvent}
    (hrun : (lts delivery).run (start call workItem metrics) es = some s)
    (hclaimed : .claim (some true) ∈ es) :
    s.sends.map (·.notifier) = delivery.targets (delivery.alert workItem call) := by
  revert hclaimed
  have hkept : s.Kept call workItem ∧ (.claim (some true) ∈ es →
      s.sends.map (·.notifier) = delivery.targets (delivery.alert workItem call)) := by
    refine Lts.run_invariant_history (I := fun es s => s.Kept call workItem ∧
      (.claim (some true) ∈ es →
        s.sends.map (·.notifier) = delivery.targets (delivery.alert workItem call)))
      ⟨kept_start metrics, by simp⟩ ?_ hrun
    rintro es s e s' - ⟨hkept, htargets⟩ hstep
    have hruns := runs_of_step hstep
    refine ⟨kept_step hkept hruns, fun hmem => ?_⟩
    cases hruns with
    | claimed =>
      simp only [onClaimed, List.map_map, Function.comp_def, List.map_id', hkept.call,
        hkept.workItem]
    | unclaimed _ hno => exact htargets (by simpa [Ne.symm hno] using hmem)
    | @moved _ _ notifier _ pc' _ hk hmoves =>
      have hnotifiers := map_set_of_eq (y := ⟨notifier, pc'⟩) (f := SendVia.notifier) hk rfl
      refine hnotifiers.trans (htargets ?_)
      cases hmoves <;> simpa using hmem
    | fannedOut => exact htargets (by simpa using hmem)
    | broken => exact htargets (by simpa using hmem)
    | other => exact htargets (by simpa using hmem)
  exact hkept.2

/-- Whatever the notifiers, the metrics writer and the provider do and in whatever order: a
dispatch that has claimed its alert sends it to every target and ends, the recorder holds
what its sends have counted, and once it is over each target has counted once, as its
notifier behaved, and an escalation has reported so, if and only if the provider answered
behind every success and, in an escalation, behind every failure. -/
theorem accounted_iff_provider_answers {metrics : AlertMetricsRecorder} {es : List DispatchEvent}
    (hrun : (lts delivery).run (start call workItem metrics) es = some s) :
    (.claim (some true) ∈ es →
      s.sends.map (·.notifier) = delivery.targets (delivery.alert workItem call)) ∧
    (∀ channel outcome, s.metrics.counts channel outcome =
      metrics.counts channel outcome + s.recordedBy channel outcome +
        ((lts delivery).emitted others (start call workItem metrics) es).count
          (channel, outcome)) ∧
    es.countP DispatchEvent.isOwn ≤ (delivery.targets (delivery.alert workItem call)).length *
      (delivery.maxAttempts + 2) + 2 ∧
    (s.isOver = false → ∃ e : DispatchEvent, e.isOwn = true ∧ (s.step delivery e).isSome) ∧
    (s.isOver = true →
      (s.Accounted ↔ (lts delivery).Meets ProviderAnswers (start call workItem metrics) es)) := by
  have hall : (lts delivery).Meets (fun _ _ => True) (start call workItem metrics) es :=
    Lts.meets_of_forall (fun _ _ => trivial) _ _
  have hkeeps : ∀ s e s', s.Kept call workItem → (lts delivery).step s e = some s' →
      s'.Kept call workItem := fun _ _ _ hkept hstep => kept_step hkept (runs_of_step hstep)
  refine ⟨targets_of_run hrun, ?_, ?_, exists_step_of_not_over, ?_⟩
  · intro channel outcome
    have hcounts := Lts.run_invariant_emitted (f := others)
      (I := fun s l => s.Kept call workItem ∧ s.metrics.counts channel outcome =
        metrics.counts channel outcome + s.recordedBy channel outcome + l.count (channel, outcome))
      (fun s e s' l hledger _ hstep => ⟨hkeeps s e s' hledger.1 hstep, by
        have hone := counts_step hledger.1 (runs_of_step hstep) channel outcome
        have hbefore := hledger.2
        rw [List.count_append]
        omega⟩)
      hrun hall (l := []) ⟨kept_start metrics, rfl⟩
    exact hcounts.2
  · have hbound : ∃ m, s.left delivery = m ∧ m + es.countP DispatchEvent.isOwn ≤
        (start call workItem metrics).left delivery :=
      Lts.countP_le_variant (V := fun n s => s.left delivery = n)
        (fun n s e s' hn _ hstep => ⟨_, rfl, hn ▸ left_step (runs_of_step hstep)⟩) hrun hall rfl
    obtain ⟨m, -, hle⟩ := hbound
    simp only [left, start, List.map_nil, List.sum_nil] at hle
    omega
  · intro hover
    have hkept := Lts.run_invariant hkeeps hrun (kept_start metrics)
    have hlast := Lts.last_iff_meets (P := ProviderAnswers)
      (I := fun s : Dispatch => ∀ send ∈ s.sends, send.pc.Sound s.call) hkeeps
      (fun _ _ _ hkept hstep => sound_step hkept (runs_of_step hstep)) hrun (kept_start metrics)
    rw [accounted_iff_sound hkept hover, hlast]
    simp [start]

/-- An escalation of a work item of a cache, on the console alone. -/
def escalationToConsole : Dispatch :=
  start .dispatchEscalation ⟨"w", "c", .CACHE, .P1, .OPEN, "CACHE outage", 0, none, none, 1, 0, 0⟩
    .new

/-- The delivery of a process without webhooks. -/
def consoleDelivery : AlertDelivery := ⟨alertDispatcher, fun _ => none, 3⟩

/-- The console fails once; every point is written. -/
theorem accounted_iff_provider_answers_of_retry : ∃ s,
    (lts consoleDelivery).run escalationToConsole [.claim (some true), .attempt 0 false .writer,
      .other "slack" .failed, .attempt 0 true .writer, .written 0 false, .settle] = some s ∧
    s.Accounted := by
  have hobserved : ((lts consoleDelivery).run escalationToConsole [.claim (some true),
      .attempt 0 false .writer, .other "slack" .failed, .attempt 0 true .writer,
      .written 0 false, .settle]).map isOver = some true := by
    decide +kernel
  obtain ⟨s, hrun, hover⟩ := Option.map_eq_some_iff.1 hobserved
  refine ⟨s, hrun, ((accounted_iff_provider_answers hrun).2.2.2.2 hover).2 ?_⟩
  decide +kernel

/-- The provider throws while Mongo is not connected: the console's delivery counts as a
failure as well, and the escalation reports that it was none. -/
theorem delivered_and_failed : ∃ s,
    (lts consoleDelivery).run escalationToConsole [.claim (some true), .attempt 0 true .throws,
      .fail 0 .throws, .settle] = some s ∧
    s.isOver = true ∧ s.sends.map (·.pc.behaved) = [some .delivered] ∧
    s.metrics.counts "console" .delivered = 1 ∧ s.metrics.counts "console" .failed = 1 ∧
    s.pc = .returned false ∧ ¬ s.Accounted := by
  have hobserved : ((lts consoleDelivery).run escalationToConsole [.claim (some true),
      .attempt 0 true .throws, .fail 0 .throws, .settle]).map (fun s =>
        (s.isOver, s.sends, s.metrics.counts "console" .delivered,
          s.metrics.counts "console" .failed, s.pc)) =
      some (true, [⟨consoleNotifier, .rejected .delivered⟩], 1, 1, .returned false) := by
    decide +kernel
  obtain ⟨s, hrun, hs⟩ := Option.map_eq_some_iff.1 hobserved
  simp only [Prod.mk.injEq] at hs
  obtain ⟨hover, hsends, hdelivered, hfailed, hpc⟩ := hs
  refine ⟨s, hrun, hover, ?_, hdelivered, hfailed, hpc, fun haccount => ?_⟩
  · rw [hsends]
    rfl
  · obtain ⟨behaved, hbehaved, hrecorded⟩ := haccount.outcomes
      ⟨consoleNotifier, .rejected .delivered⟩ (by simp [hsends])
    cases hbehaved
    cases hrecorded

end Dispatch

end InveniOps.Alerting
