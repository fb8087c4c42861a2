import InveniOps.Realtime.IncidentStream

/-!
# What the clients of the incident stream dispatch

A client dispatches what is published, in this order and each event at most once, whatever
happens to the connections; and as long as nothing interrupts its stream, it dispatches all
of it, however the stream is cut into chunks.
-/

namespace InveniOps.Realtime

open Lib Domain Auth

variable {F : NumberFormat} {cfg : AuthConfig} {s s' t : StreamSystem} {e : StreamStep}
  {es : List StreamStep} {r c j : ℕ} {x y : EventStream} {conn conn' : Connection}

variable (F) in
/-- What the clients are to dispatch for some messages of the channel. -/
def messagesOf (queue : List (List Char)) : List StreamMessage :=
  queue.filterMap fun message => (receive message : Option (ReceivedEvent F)).map (·.toMessage)

variable (F) in
/-- What the clients are to dispatch for what a step publishes. -/
def StreamStep.published : StreamStep → List StreamMessage
  | .publish event true => [⟨event.type, event.message F, []⟩]
  | .publishOther message => messagesOf F [message]
  | _ => []

lemma messagesOf_append (queue queue' : List (List Char)) :
    messagesOf F (queue ++ queue') = messagesOf F queue ++ messagesOf F queue' :=
  List.filterMap_append

lemma messagesOf_message (event : IncidentEvent) :
    messagesOf F [event.message F] = [⟨event.type, event.message F, []⟩] := by
  obtain ⟨received, hreceive, -, hmessage⟩ := receive_message (F := F) event
  simp [messagesOf, hreceive, hmessage]

/-! ### Streams -/

namespace EventStream

/-- What the client has dispatched, and what it will dispatch of what is written. -/
def arrived (x : EventStream) : List StreamMessage :=
  x.dispatched ++ (x.parser.feedAll x.wire).2

/-- What is written ends between two messages. -/
def Settled (x : EventStream) : Prop := (x.parser.feedAll x.wire).1 = .start

/-- What is written behind `x` makes the client dispatch some more messages. -/
structure Grown (x y : EventStream) (more : List StreamMessage) : Prop where
  replica : y.replica = x.replica
  settled : y.Settled
  arrived : y.arrived = x.arrived ++ more

lemma idle_start : StreamParser.start.Idle := ⟨rfl, rfl, rfl, rfl⟩

lemma Grown.refl (h : x.Settled) : x.Grown x [] := ⟨rfl, h, (List.append_nil _).symm⟩

lemma grown_write (h : x.Settled) {text : List Char} {more : List StreamMessage}
    (htext : StreamParser.start.feedAll text = (.start, more)) : x.Grown (x.write text) more := by
  have hfeed : x.parser.feedAll (x.wire ++ text) =
      (.start, (x.parser.feedAll x.wire).2 ++ more) := by
    rw [StreamParser.feedAll_append, show (x.parser.feedAll x.wire).1 = .start from h, htext]
  exact ⟨rfl, congrArg Prod.fst hfeed, by simp [arrived, write, hfeed]⟩

lemma grown_heartbeat (h : x.Settled) : x.Grown (x.write heartbeatText) [] :=
  grown_write h (StreamParser.feedAll_commentText idle_start
    (by decide))

lemma grown_listen (h : x.Settled) (hlistening : x.listening = true) (event : ReceivedEvent F) :
    x.Grown (x.listen x.replica event) [event.toMessage] := by
  rw [listen, if_pos ⟨rfl, hlistening⟩]
  exact grown_write h (feedAll_text event idle_start rfl)

lemma grown_read (h : x.Settled) (n : ℕ) : x.Grown (x.read n) [] := by
  have hfeed := StreamParser.feedAll_append (P := x.parser) (x.wire.take n) (x.wire.drop n)
  rw [List.take_append_drop] at hfeed
  refine ⟨rfl, ?_, ?_⟩
  · exact (congrArg Prod.fst hfeed).symm.trans h
  · simp [arrived, read, hfeed]

lemma settled_opened (r : ℕ) : (opened r).Settled ∧ (opened r).arrived = [] := by
  have hfeed : StreamParser.start.feedAll connectedText = (.start, []) :=
    StreamParser.feedAll_commentText idle_start (by decide)
  exact ⟨congrArg Prod.fst hfeed, by simp [arrived, opened, hfeed]⟩

/-- What a client has dispatched is a beginning of what has arrived for it. -/
lemma dispatched_isPrefix (x : EventStream) : x.dispatched <+: x.arrived :=
  List.prefix_append _ _

end EventStream

/-! ### Connections -/

/-- All but one of the connections of a subscriber are closed. -/
def Feeds (s : StreamSystem) (r c : ℕ) (conn : Connection) : Prop :=
  ∃ S, s.subscribers[r]? = some S ∧ S.connections[c]? = some conn ∧
    ∀ c' ≠ c, ∀ conn', S.connections[c']? = some conn' → conn'.state = .closed

variable (F) in
/-- What a step brings from a connection to the listeners of its subscriber. -/
def StreamStep.brought (r c : ℕ) (conn : Connection) : StreamStep → List StreamMessage
  | .received r' c' => if r' = r ∧ c' = c then messagesOf F (conn.queue.take 1) else []
  | _ => []

/-- The steps that lose messages of a connection. -/
def StreamStep.Cuts (r c : ℕ) (e : StreamStep) : Prop :=
  e = .disconnected r c ∨ e = .stopped r

/-- Nothing but what is published gets to the queue of a connection, and nothing but what the
listeners are brought leaves it while it stays subscribed. -/
structure Moved (F : NumberFormat) (r c : ℕ) (conn : Connection) (e : StreamStep)
    (conn' : Connection) : Prop where
  sublist : (e.brought F r c conn ++ messagesOf F conn'.queue).Sublist
    (messagesOf F conn.queue ++ e.published F)
  subscribed : conn.state = .subscribed → ¬ e.Cuts r c → conn'.state = .subscribed ∧
    e.brought F r c conn ++ messagesOf F conn'.queue =
      messagesOf F conn.queue ++ e.published F

lemma moved_of_queue (hqueue : conn'.queue = conn.queue)
    (hstate : conn.state = .subscribed → ¬ e.Cuts r c → conn'.state = .subscribed)
    (hbrought : e.brought F r c conn = []) (hpublished : e.published F = []) :
    Moved F r c conn e conn' := by
  have hsame : e.brought F r c conn ++ messagesOf F conn'.queue =
      messagesOf F conn.queue ++ e.published F := by
    simp [hqueue, hbrought, hpublished]
  exact ⟨hsame ▸ List.Sublist.refl _, fun hsub hcuts => ⟨hstate hsub hcuts, hsame⟩⟩

lemma moved_accept {message : List Char} (hbrought : e.brought F r c conn = [])
    (hpublished : e.published F = messagesOf F [message]) :
    Moved F r c conn e (conn.accept message) := by
  unfold Connection.accept
  split_ifs with hsub
  · have hsame : e.brought F r c conn ++ messagesOf F (conn.queue ++ [message]) =
        messagesOf F conn.queue ++ e.published F := by
      simp [hbrought, hpublished, messagesOf_append]
    exact ⟨hsame ▸ List.Sublist.refl _, fun _ _ => ⟨hsub, hsame⟩⟩
  · refine ⟨?_, fun h => absurd h hsub⟩
    rw [hbrought]
    exact List.sublist_append_left _ _

/-- What a connection loses is not brought. -/
lemma moved_of_cut (hqueue : conn'.queue = []) (hcuts : e.Cuts r c) :
    Moved F r c conn e conn' := by
  refine ⟨?_, fun _ hne => absurd hcuts hne⟩
  rcases hcuts with rfl | rfl <;> simp [hqueue, StreamStep.brought, messagesOf]

lemma moved_received {message : List Char} (hqueue : conn.queue = message :: conn'.queue)
    (hstate : conn'.state = .subscribed) : Moved F r c conn (.received r c) conn' := by
  have happend := messagesOf_append (F := F) [message] conn'.queue
  have hsame : StreamStep.brought F r c conn (.received r c) ++ messagesOf F conn'.queue =
      messagesOf F conn.queue ++ StreamStep.published F (.received r c) := by
    simp only [List.singleton_append] at happend
    simp [StreamStep.brought, StreamStep.published, hqueue, happend]
  exact ⟨hsame ▸ List.Sublist.refl _, fun _ _ => ⟨hstate, hsame⟩⟩

namespace Feeds

/-- A connection that is not closed is the one. -/
lemma eq_of_live (h : Feeds s r c conn) {c' : ℕ} (hget : s.connection? r c' = some conn')
    (hlive : conn'.state ≠ .closed) : c' = c ∧ conn' = conn := by
  obtain ⟨S, hS, hconn, hothers⟩ := h
  simp only [StreamSystem.connection?, hS, Option.bind_some] at hget
  have hc : c' = c := by
    by_contra hc
    exact hlive (hothers c' hc conn' hget)
  subst hc
  exact ⟨rfl, Option.some.inj (hget.symm.trans hconn)⟩

lemma get (h : Feeds s r c conn) : s.connection? r c = some conn := by
  obtain ⟨S, hS, hconn, -⟩ := h
  simp [StreamSystem.connection?, hS, hconn]

/-- The connections of a subscriber are what counts. -/
lemma congr (h : Feeds s r c conn)
    (heq : ∀ S, s.subscribers[r]? = some S →
      ∃ S', s'.subscribers[r]? = some S' ∧ S'.connections = S.connections) :
    Feeds s' r c conn := by
  obtain ⟨S, hS, hconn, hothers⟩ := h
  obtain ⟨S', hS', hsame⟩ := heq S hS
  exact ⟨S', hS', by rw [hsame, hconn], by rwa [hsame]⟩

/-- One connection of the subscriber changes. -/
lemma modify (h : Feeds s r c conn) (c' : ℕ) (f : Connection → Connection)
    (hothers : c' ≠ c → ∀ y, (f y).state = .closed)
    (heq : ∀ S, s.subscribers[r]? = some S → ∃ S', s'.subscribers[r]? = some S' ∧
      S'.connections = S.connections.modify c' f) :
    Feeds s' r c (if c' = c then f conn else conn) := by
  obtain ⟨S, hS, hconn, hclosed⟩ := h
  obtain ⟨S', hS', hsame⟩ := heq S hS
  refine ⟨S', hS', ?_, ?_⟩
  · rw [hsame, List.getElem?_modify, hconn]
    split_ifs <;> rfl
  · intro d hd y hy
    rw [hsame, List.getElem?_modify] at hy
    obtain ⟨z, hz, rfl⟩ := Option.map_eq_some_iff.1 hy
    by_cases hcd : c' = d
    · rw [if_pos hcd]
      exact hothers (fun hc => hd (hcd ▸ hc)) z
    · rw [if_neg hcd]
      exact hclosed d hd z hz

lemma broadcast (h : Feeds s r c conn) (message : List Char) :
    Feeds (s.broadcast message) r c (conn.accept message) := by
  obtain ⟨S, hS, hconn, hothers⟩ := h
  refine ⟨S.accept message, by simp [StreamSystem.broadcast, hS],
    by simp [Subscriber.accept, hconn], ?_⟩
  intro c' hc' y hy
  obtain ⟨z, hz, rfl⟩ : ∃ z, S.connections[c']? = some z ∧ z.accept message = y := by
    simpa [Subscriber.accept] using hy
  have hclosed := hothers c' hc' z hz
  simp [Connection.accept, hclosed]

/-- A step at a connection that is not closed. -/
lemma setConnection (h : Feeds s r c conn) {r' c' : ℕ} {old : Connection}
    (hget : s.connection? r' c' = some old) (hlive : old.state ≠ .closed) :
    Feeds (s.setConnection r' c' conn') r c (if r' = r ∧ c' = c then conn' else conn) := by
  by_cases hr : r' = r
  · subst hr
    obtain ⟨rfl, -⟩ := h.eq_of_live hget hlive
    have hset : Feeds (s.setConnection r' c' conn') r' c' (if c' = c' then conn' else conn) :=
      h.modify c' (fun _ => conn') (fun hne => absurd rfl hne)
        (fun S hS => ⟨{ S with connections := S.connections.modify c' fun _ => conn' },
          by simp [StreamSystem.setConnection, hS], rfl⟩)
    simpa using hset
  · rw [if_neg fun h => hr h.1]
    exact h.congr fun S hS => ⟨S, by simp [StreamSystem.setConnection, hS, hr], rfl⟩

lemma of_eq (h : Feeds s r c conn) (heq : s'.subscribers = s.subscribers) : Feeds s' r c conn :=
  h.congr fun S hS => ⟨S, by rw [heq, hS], rfl⟩

lemma emit_subscribers (s : StreamSystem) (r : ℕ) (message : List Char) :
    (s.emit F r message).subscribers = s.subscribers := by
  unfold StreamSystem.emit
  cases (receive message : Option (ReceivedEvent F)) <;> rfl

lemma aside (h : Feeds s' r c conn) (hbrought : e.brought F r c conn = [])
    (hpublished : e.published F = []) : ∃ conn', Feeds s' r c conn' ∧ Moved F r c conn e conn' :=
  ⟨conn, h, moved_of_queue rfl (fun hsub _ => hsub) hbrought hpublished⟩

/-- A step at a connection, of this subscriber or another. -/
lemma at_connection (h : Feeds s r c conn) (conn' : Connection) {r' c' : ℕ} {old : Connection}
    (hget : s.connection? r' c' = some old) (hlive : old.state ≠ .closed)
    (hhere : r' = r → c' = c → conn = old → Moved F r c conn e conn')
    (hbrought : ¬ (r' = r ∧ c' = c) → e.brought F r c conn = [])
    (hpublished : e.published F = []) :
    ∃ conn'', Feeds (s.setConnection r' c' conn') r c conn'' ∧ Moved F r c conn e conn'' := by
  have hset : Feeds (s.setConnection r' c' conn') r c
      (if r' = r ∧ c' = c then conn' else conn) := h.setConnection hget hlive
  by_cases hhit : r' = r ∧ c' = c
  · rw [if_pos hhit] at hset
    obtain ⟨rfl, rfl⟩ := hhit
    exact ⟨conn', hset, hhere rfl rfl (h.eq_of_live hget hlive).2.symm⟩
  · rw [if_neg hhit] at hset
    exact hset.aside (hbrought hhit) hpublished

/-- What a step does to the connection. -/
theorem step (h : Feeds s r c conn) (hstep : s.step F cfg e = some s') (hstart : e ≠ .start r) :
    ∃ conn', Feeds s' r c conn' ∧ Moved F r c conn e conn' := by
  cases e with
  | publish event reached =>
    cases reached with
    | false =>
      obtain rfl := Option.some.inj hstep
      exact h.aside rfl rfl
    | true =>
      obtain rfl := Option.some.inj hstep
      exact ⟨_, h.broadcast _, moved_accept rfl (messagesOf_message event).symm⟩
  | publishOther message =>
    obtain rfl := Option.some.inj hstep
    exact ⟨_, h.broadcast _, moved_accept rfl rfl⟩
  | start r' =>
    obtain rfl := Option.some.inj hstep
    have hr : r' ≠ r := fun hr => hstart (hr ▸ rfl)
    exact (h.congr fun S hS => ⟨S, by simp [hS, hr], rfl⟩).aside rfl rfl
  | subscribed r' c' =>
    simp only [StreamSystem.step] at hstep
    split at hstep
    · rename_i starting queue hget
      obtain rfl := Option.some.inj hstep
      refine h.at_connection _ hget (by simp) (fun _ _ hconn => ?_) (fun _ => rfl) rfl
      exact moved_of_queue (by rw [hconn]) (fun _ _ => rfl) rfl rfl
    · cases hstep
  | started r' c' =>
    simp only [StreamSystem.step] at hstep
    split at hstep
    · rename_i queue hget
      obtain rfl := Option.some.inj hstep
      obtain ⟨conn', hfeeds, hmoved⟩ := h.at_connection (F := F) (e := .started r' c')
        ⟨.subscribed, false, queue⟩ hget (by simp)
        (fun _ _ hconn => moved_of_queue (by rw [hconn]) (fun _ _ => rfl) rfl rfl)
        (fun _ => rfl) rfl
      refine ⟨conn', hfeeds.congr fun S hS => ?_, hmoved⟩
      by_cases hr : r' = r
      · subst hr
        refine ⟨{ S with connection := some c' }, ?_, rfl⟩
        rw [List.getElem?_modify_eq, hS]
        rfl
      · exact ⟨S, by simp [hS, hr], rfl⟩
    · cases hstep
  | disconnected r' c' =>
    simp only [StreamSystem.step] at hstep
    split at hstep
    · rename_i starting queue hget
      obtain rfl := Option.some.inj hstep
      refine h.at_connection _ hget (by simp) (fun hr hc _ => ?_) (fun _ => rfl) rfl
      exact moved_of_cut rfl (.inl (by rw [hr, hc]))
    · cases hstep
  | received r' c' =>
    simp only [StreamSystem.step] at hstep
    split at hstep
    · rename_i starting message queue hget
      obtain rfl := Option.some.inj hstep
      obtain ⟨conn', hfeeds, hmoved⟩ := h.at_connection (F := F) (e := .received r' c')
        ⟨.subscribed, starting, queue⟩ hget (by simp)
        (fun hr hc hconn => by
          subst hr hc
          exact moved_received (by rw [hconn]) rfl)
        (fun hmiss => if_neg hmiss) rfl
      exact ⟨conn', hfeeds.of_eq (emit_subscribers _ _ _), hmoved⟩
    · cases hstep
  | stop r' =>
    obtain rfl := Option.some.inj hstep
    refine (h.congr fun S hS => ?_).aside rfl rfl
    by_cases hr : r' = r
    · exact ⟨S.stop, by simp [hS, hr], rfl⟩
    · exact ⟨S, by simp [hS, hr], rfl⟩
  | stopped r' =>
    simp only [StreamSystem.step] at hstep
    split at hstep
    · rename_i connections connection quit quitting hget
      obtain rfl := Option.some.inj hstep
      by_cases hr : r' = r
      · subst hr
        cases quit with
        | none =>
          refine ⟨conn, h.congr fun S hS => ⟨S.stopped none quitting, by simp [hS], rfl⟩, ?_⟩
          exact moved_of_queue rfl (fun _ hcuts => absurd (.inr rfl) hcuts) rfl rfl
        | some c' =>
          refine ⟨_, h.modify c' (fun _ => ⟨.closed, false, []⟩) (fun _ _ => rfl)
            (fun S hS => ⟨S.stopped (some c') quitting, by simp [hS], rfl⟩), ?_⟩
          split_ifs
          · exact moved_of_cut rfl (.inr rfl)
          · exact moved_of_queue rfl (fun _ hcuts => absurd (.inr rfl) hcuts) rfl rfl
      · exact (h.congr fun S hS => ⟨S, by simp [hS, hr], rfl⟩).aside rfl rfl
    · cases hstep
  | request r' token now =>
    simp only [StreamSystem.step] at hstep
    split at hstep
    · obtain rfl := Option.some.inj hstep
      exact h.aside rfl rfl
    · split_ifs at hstep
      obtain rfl := Option.some.inj hstep
      exact (h.of_eq rfl).aside rfl rfl
  | heartbeat j | read j n =>
    simp only [StreamSystem.step] at hstep
    split at hstep
    · split_ifs at hstep
      obtain rfl := Option.some.inj hstep
      exact (h.of_eq rfl).aside rfl rfl
    · cases hstep
  | leave j | close j =>
    obtain rfl := Option.some.inj hstep
    exact (h.of_eq rfl).aside rfl rfl

end Feeds

/-! ### A step at a stream -/

/-- A stream has lost its listener, or has it still. -/
def Listens (e : StreamStep) (r j : ℕ) (x y : EventStream) : Prop :=
  y.listening = x.listening ∨ y.listening = false ∧ (e = .stop r ∨ e = .close j)

lemma EventStream.Grown.of_listener {more : List StreamMessage} (h : x.Settled)
    (hmore : x.listening = true → x.Grown y more) (hdeaf : x.listening = false → y = x) :
    x.Grown y (if x.listening then more else []) := by
  cases hlistening : x.listening with
  | true => exact hmore hlistening
  | false =>
    rw [hdeaf hlistening]
    exact .refl h

/-- The listeners of a subscriber at a message. -/
lemma grown_of_emit (h : x.Settled) (hstream : s.streams[j]? = some x) (message : List Char) :
    ∃ y, (s.emit F x.replica message).streams[j]? = some y ∧ y.listening = x.listening ∧
      x.Grown y (if x.listening then messagesOf F [message] else []) := by
  unfold StreamSystem.emit
  cases hreceive : (receive message : Option (ReceivedEvent F)) with
  | none =>
    refine ⟨x, hstream, rfl, .of_listener h (fun _ => ?_) fun _ => rfl⟩
    simpa [messagesOf, hreceive] using EventStream.Grown.refl h
  | some event =>
    refine ⟨x.listen x.replica event, by simp [hstream], ?_, .of_listener h (fun hl => ?_) ?_⟩
    · unfold EventStream.listen
      split_ifs <;> rfl
    · simpa [messagesOf, hreceive] using EventStream.grown_listen h hl event
    · intro hl
      simp [EventStream.listen, hl]

lemma emit_streams_ne (hstream : s.streams[j]? = some x) (hr : r ≠ x.replica)
    (message : List Char) : (s.emit F r message).streams[j]? = some x := by
  unfold StreamSystem.emit
  cases (receive message : Option (ReceivedEvent F)) with
  | none => exact hstream
  | some event => simp [hstream, EventStream.listen, Ne.symm hr]

/-- A step that writes no message. -/
lemma grown_aside (h : x.Settled) (hstream : s'.streams[j]? = some x)
    (hbrought : e.brought F r c conn = []) :
    ∃ y, s'.streams[j]? = some y ∧ Listens e r j x y ∧
      x.Grown y (if x.listening then e.brought F r c conn else []) :=
  ⟨x, hstream, .inl rfl, by simpa [hbrought] using EventStream.Grown.refl h⟩

/-- A step that concerns one stream and writes no message. -/
lemma grown_modify (h : x.Settled) (hstream : s.streams[j]? = some x) {j' : ℕ}
    {f : EventStream → EventStream} (hf : x.Grown (f x) [])
    (hlistens : (f x).listening = x.listening)
    (hbrought : e.brought F r c conn = []) :
    ∃ y, (s.streams.modify j' f)[j]? = some y ∧ Listens e r j x y ∧
      x.Grown y (if x.listening then e.brought F r c conn else []) := by
  by_cases hj : j' = j
  · exact ⟨f x, by simp [hstream, hj], .inl hlistens, by simpa [hbrought] using hf⟩
  · exact ⟨x, by simp [hstream, hj], .inl rfl, by simpa [hbrought] using EventStream.Grown.refl h⟩

/-- What a step does to a stream. -/
theorem grown_of_step (hfeeds : Feeds s r c conn) (hstep : s.step F cfg e = some s')
    (hstream : s.streams[j]? = some x) (hr : x.replica = r) (h : x.Settled) :
    ∃ y, s'.streams[j]? = some y ∧ Listens e r j x y ∧
      x.Grown y (if x.listening then e.brought F r c conn else []) := by
  subst hr
  cases e with
  | publish event reached =>
    cases reached <;> obtain rfl := Option.some.inj hstep <;> exact grown_aside h hstream rfl
  | publishOther | start =>
    obtain rfl := Option.some.inj hstep
    exact grown_aside h hstream rfl
  | subscribed | started | disconnected | stopped =>
    simp only [StreamSystem.step] at hstep
    split at hstep
    · obtain rfl := Option.some.inj hstep
      exact grown_aside h hstream rfl
    · cases hstep
  | received r' c' =>
    simp only [StreamSystem.step] at hstep
    split at hstep
    · rename_i starting message queue hget
      obtain rfl := Option.some.inj hstep
      by_cases hr : r' = x.replica
      · subst hr
        obtain ⟨rfl, rfl⟩ := hfeeds.eq_of_live hget (by simp)
        obtain ⟨y, hy, hlistens, hgrown⟩ := grown_of_emit (F := F)
          (s := s.setConnection x.replica c' ⟨.subscribed, starting, queue⟩) h hstream message
        exact ⟨y, hy, .inl hlistens, by simpa [StreamStep.brought] using hgrown⟩
      · exact grown_aside h (emit_streams_ne (s := s.setConnection r' c' _) hstream hr _)
          (if_neg fun hhit => hr hhit.1)
    · cases hstep
  | stop r' =>
    obtain rfl := Option.some.inj hstep
    by_cases hr : r' = x.replica
    · subst hr
      refine ⟨{ x with listening := false }, ?_, .inr ⟨rfl, .inl rfl⟩, rfl, h, ?_⟩
      · simp [hstream, EventStream.unlisten]
      · simp [StreamStep.brought, EventStream.arrived]
    · refine grown_aside h ?_ rfl
      simp [hstream, EventStream.unlisten, Ne.symm hr]
  | request r' token now =>
    simp only [StreamSystem.step] at hstep
    split at hstep
    · obtain rfl := Option.some.inj hstep
      exact grown_aside h hstream rfl
    · split_ifs at hstep
      obtain rfl := Option.some.inj hstep
      exact grown_aside h (getElem?_concat_of hstream _) rfl
  | heartbeat j' =>
    simp only [StreamSystem.step] at hstep
    split at hstep
    · split_ifs at hstep
      obtain rfl := Option.some.inj hstep
      exact grown_modify h hstream (EventStream.grown_heartbeat h) rfl rfl
    · cases hstep
  | read j' n =>
    simp only [StreamSystem.step] at hstep
    split at hstep
    · split_ifs at hstep
      obtain rfl := Option.some.inj hstep
      exact grown_modify h hstream (EventStream.grown_read h n) rfl rfl
    · cases hstep
  | leave j' =>
    obtain rfl := Option.some.inj hstep
    exact grown_modify h hstream ⟨rfl, h, (List.append_nil _).symm⟩ rfl rfl
  | close j' =>
    obtain rfl := Option.some.inj hstep
    by_cases hj : j' = j
    · refine ⟨x.close, by simp [hstream, hj], .inr ⟨rfl, .inr (by rw [hj])⟩, rfl, h, ?_⟩
      simp [StreamStep.brought, EventStream.arrived, EventStream.close]
    · exact grown_aside h (by simp [hstream, hj]) rfl

lemma map_replica_modify (streams : List EventStream) {f : EventStream → EventStream}
    (hf : ∀ x, (f x).replica = x.replica) :
    (streams.modify j f).map (·.replica) = streams.map (·.replica) := by
  refine List.ext_getElem? fun i => ?_
  rw [List.getElem?_map, List.getElem?_map, List.getElem?_modify]
  cases streams[i]? with
  | none => rfl
  | some x => by_cases hi : j = i <;> simp [hi, hf]

lemma map_replica_listen (event : ReceivedEvent F) (streams : List EventStream) :
    (streams.map (·.listen r event)).map (·.replica) = streams.map (·.replica) := by
  rw [List.map_map]
  refine List.map_congr_left fun x _ => ?_
  simp only [Function.comp, EventStream.listen]
  split_ifs <;> rfl

lemma map_replica_unlisten (streams : List EventStream) :
    (streams.map (·.unlisten r)).map (·.replica) = streams.map (·.replica) := by
  rw [List.map_map]
  refine List.map_congr_left fun x _ => ?_
  simp only [Function.comp, EventStream.unlisten]
  split_ifs <;> rfl

/-- Streams stay where they are; a step opens one, or none. -/
lemma streams_of_step (hstep : s.step F cfg e = some s') :
    s'.streams.map (·.replica) = s.streams.map (·.replica) ∨
      ∃ r, s'.streams = s.streams ++ [.opened r] := by
  cases e with
  | publish event reached =>
    cases reached <;> obtain rfl := Option.some.inj hstep <;> exact .inl rfl
  | publishOther | start =>
    obtain rfl := Option.some.inj hstep
    exact .inl rfl
  | subscribed | started | disconnected | stopped =>
    simp only [StreamSystem.step] at hstep
    split at hstep
    · obtain rfl := Option.some.inj hstep
      exact .inl rfl
    · cases hstep
  | received r' c' =>
    simp only [StreamSystem.step] at hstep
    split at hstep
    · rename_i starting message queue hget
      obtain rfl := Option.some.inj hstep
      left
      unfold StreamSystem.emit
      cases (receive message : Option (ReceivedEvent F)) with
      | none => rfl
      | some event => exact map_replica_listen event s.streams
    · cases hstep
  | request r' token now =>
    simp only [StreamSystem.step] at hstep
    split at hstep
    · obtain rfl := Option.some.inj hstep
      exact .inl rfl
    · split_ifs at hstep
      obtain rfl := Option.some.inj hstep
      exact .inr ⟨r', rfl⟩
  | heartbeat | read =>
    simp only [StreamSystem.step] at hstep
    split at hstep
    · split_ifs at hstep
      obtain rfl := Option.some.inj hstep
      left
      refine map_replica_modify s.streams ?_
      exact fun _ => rfl
    · cases hstep
  | stop =>
    obtain rfl := Option.some.inj hstep
    exact .inl (map_replica_unlisten _)
  | leave | close =>
    obtain rfl := Option.some.inj hstep
    left
    refine map_replica_modify s.streams ?_
    exact fun _ => rfl

/-- A stream has just been opened, or was where it is. -/
lemma stream_of_step (hstep : s.step F cfg e = some s') (hstream : s'.streams[j]? = some y) :
    y = .opened y.replica ∨ ∃ x, s.streams[j]? = some x ∧ x.replica = y.replica := by
  rcases streams_of_step hstep with hmap | ⟨r, hstreams⟩
  · have hreplica : (s'.streams.map (·.replica))[j]? = some y.replica := by simp [hstream]
    rw [hmap, List.getElem?_map] at hreplica
    exact .inr (Option.map_eq_some_iff.1 hreplica)
  · rw [hstreams] at hstream
    rcases getElem?_concat_cases hstream with ⟨-, rfl⟩ | hold
    · exact .inl rfl
    · exact .inr ⟨y, hold, rfl⟩

/-! ### Runs -/

/-- What the streams of a subscriber have got, and will get of what is on its way, has been
published. -/
def Accounted (F : NumberFormat) (r : ℕ) (published : List StreamMessage) (s : StreamSystem) :
    Prop :=
  ∃ conn, Feeds s r 0 conn ∧ (messagesOf F conn.queue).Sublist published ∧
    ∀ (j : ℕ) (x : EventStream), s.streams[j]? = some x → x.replica = r → x.Settled ∧
      (x.arrived ++ if x.listening then messagesOf F conn.queue else []).Sublist published

variable {published : List StreamMessage} {n : ℕ}

lemma accounted_init (hr : r < n) : Accounted F r [] (.init n) := by
  refine ⟨⟨.offline, true, []⟩, ⟨_, by simp [StreamSystem.init, hr]; rfl, rfl, ?_⟩, ?_, ?_⟩
  · intro c' hc' conn' hconn'
    simp [Subscriber.start, hc'] at hconn'
  · simp [messagesOf]
  · simp [StreamSystem.init]

lemma Accounted.step (h : Accounted F r published s) (hstep : s.step F cfg e = some s')
    (hstart : e ≠ .start r) : Accounted F r (published ++ e.published F) s' := by
  obtain ⟨conn, hfeeds, hqueue, hstreams⟩ := h
  obtain ⟨conn', hfeeds', hmoved⟩ := hfeeds.step hstep hstart
  have hqueue' : (messagesOf F conn'.queue).Sublist (published ++ e.published F) :=
    ((List.sublist_append_right _ _).trans hmoved.sublist).trans (hqueue.append (.refl _))
  refine ⟨conn', hfeeds', hqueue', fun j y hy hr => ?_⟩
  rcases stream_of_step hstep hy with hopened | ⟨x, hx, hreplica⟩
  · obtain ⟨hsettled, harrived⟩ := EventStream.settled_opened y.replica
    rw [hopened, harrived]
    exact ⟨hsettled, by simpa [EventStream.opened] using hqueue'⟩
  · obtain ⟨hsettled, hsublist⟩ := hstreams j x hx (hreplica.trans hr)
    obtain ⟨y', hy', hlistens, hgrown⟩ :=
      grown_of_step hfeeds hstep hx (hreplica.trans hr) hsettled
    obtain rfl := Option.some.inj (hy'.symm.trans hy)
    refine ⟨hgrown.settled, ?_⟩
    rw [hgrown.arrived]
    cases hlistening : x.listening with
    | false =>
      have hdeaf : y'.listening = false := by
        rcases hlistens with h | ⟨h, -⟩
        · rw [h, hlistening]
        · exact h
      rw [hlistening] at hsublist
      simp only [hdeaf, Bool.false_eq_true, if_false, List.append_nil] at hsublist ⊢
      exact hsublist.trans (List.sublist_append_left _ _)
    | true =>
      rw [hlistening, if_pos rfl] at hsublist
      have hnext : (x.arrived ++ (e.brought F r 0 conn ++ messagesOf F conn'.queue)).Sublist
          (published ++ e.published F) := by
        have hmore := (List.Sublist.refl x.arrived).append hmoved.sublist
        rw [← List.append_assoc x.arrived (messagesOf F conn.queue)] at hmore
        exact hmore.trans (hsublist.append (.refl _))
      rw [if_pos rfl, List.append_assoc]
      refine ((List.Sublist.refl _).append ((List.Sublist.refl _).append ?_)).trans hnext
      split_ifs
      · exact .refl _
      · exact List.nil_sublist _

/-- Restarts aside, what the streams get has been published. -/
lemma accounted_of_run (hr : r < n) (hrun : (StreamSystem.lts F cfg).run (.init n) es = some t)
    (hstart : .start r ∉ es) : Accounted F r (es.flatMap (·.published F)) t := by
  induction es using List.reverseRecOn generalizing t with
  | nil =>
    obtain rfl : StreamSystem.init n = t := Option.some.inj hrun
    exact accounted_init hr
  | append_singleton es e ih =>
    obtain ⟨s, hs, he⟩ := Lts.run_concat_inv hrun
    simp only [List.mem_append, List.mem_singleton, not_or] at hstart
    rw [List.flatMap_append, List.flatMap_singleton]
    exact (ih hs hstart.1).step he (Ne.symm hstart.2)

/-- A client dispatches what is published, each event at most once and in this order. -/
theorem dispatched_of_run (hrun : (StreamSystem.lts F cfg).run (.init n) es = some t)
    (hr : y.replica < n) (hstart : .start y.replica ∉ es) (hy : t.streams[j]? = some y) :
    y.dispatched.Sublist (es.flatMap (·.published F)) := by
  obtain ⟨conn, -, -, hstreams⟩ := accounted_of_run hr hrun hstart
  have harrived := (hstreams j y hy rfl).2
  exact y.dispatched_isPrefix.sublist.trans ((List.sublist_append_left _ _).trans harrived)

/-- The token of a client. -/
def clientToken : String :=
  sampleConfig.signAccessToken ⟨"u1", "operator@example.com", "Test Operator", .RESPONDER⟩ 0

/-- An incident to publish. -/
def sampleIncident : Stores.IncidentSummary :=
  ⟨"w1", "CACHE_CLUSTER_01", .CACHE, .P2, .OPEN, "cache down", 0, 1, 0⟩

/-- A replica subscribes and a client opens a stream. -/
def openedEvents : List StreamStep :=
  [.subscribed 0 0, .started 0 0, .request 0 (some clientToken) 0]

/-- The replica and the stream behind these events. -/
def openedState : StreamSystem :=
  ⟨[⟨[⟨.subscribed, false, []⟩], some 0, []⟩], [.opened 0]⟩

lemma handleStream_clientToken : handleStream sampleConfig (some clientToken) 0 = .ok () := by
  have hne : clientToken ≠ "" := by
    intro h
    have hlist := congrArg String.toList h
    simp [clientToken, AuthConfig.signAccessToken, sampleConfig, sampleSign, framed] at hlist
  have hverify : sampleConfig.verifyAccessToken clientToken 0 =
      .ok ⟨"u1", "operator@example.com", "Test Operator", .RESPONDER⟩ :=
    verifyAccessToken_sign (by decide)
  simp only [handleStream, if_neg hne, hverify]

lemma run_opened (cfg : AuthConfig) (token : Option String)
    (htoken : handleStream cfg token 0 = .ok ()) :
    (StreamSystem.lts F cfg).run (.init 1) [.subscribed 0 0, .started 0 0, .request 0 token 0] =
      some openedState := by
  simp only [Lts.run, StreamSystem.lts, StreamSystem.step, htoken]
  rfl

lemma run_openedEvents : (StreamSystem.lts .integers sampleConfig).run (.init 1) openedEvents =
    some openedState :=
  run_opened sampleConfig _ handleStream_clientToken

/-- Another publisher's event, a heartbeat, what is no event, and a client that reads twice. -/
def publishedEvents : List StreamStep :=
  [.publishOther "\x7b\"type\":\"work_item_created\"\x7d".toList, .heartbeat 0,
    .publishOther "no event".toList, .received 0 0, .read 0 40, .received 0 0, .read 0 100,
    .publish (.workItemCreated sampleIncident) true]

lemma observed_publishedEvents : ((StreamSystem.lts .integers sampleConfig).run openedState
    publishedEvents).map (·.streams[0]?.map fun y => (y.replica, y.dispatched.length)) =
      some (some (0, 1)) := by
  decide +kernel

/-- The client dispatches the first of the events. -/
theorem dispatched_of_run_of_heartbeat : ∃ t y,
    (StreamSystem.lts .integers sampleConfig).run (.init 1) (openedEvents ++ publishedEvents) =
      some t ∧ t.streams[0]? = some y ∧ y.dispatched.length = 1 ∧
      y.dispatched.Sublist ((openedEvents ++ publishedEvents).flatMap (·.published .integers)) := by
  obtain ⟨t, hrun, ht⟩ := Option.map_eq_some_iff.1 observed_publishedEvents
  obtain ⟨y, hy, hobserved⟩ := Option.map_eq_some_iff.1 ht
  obtain ⟨hreplica, hlength⟩ := Prod.mk.injEq .. ▸ hobserved
  have hwhole : (StreamSystem.lts .integers sampleConfig).run (.init 1)
      (openedEvents ++ publishedEvents) = some t := by
    rw [Lts.run_append, run_openedEvents, Option.bind_some, hrun]
  exact ⟨t, y, hwhole, hy, hlength, dispatched_of_run hwhole (by rw [hreplica]; decide)
    (by simp [openedEvents, publishedEvents]) hy⟩

/-- What interrupts a stream. -/
def StreamStep.Interrupts (r j : ℕ) (e : StreamStep) : Prop :=
  e = .start r ∨ e.Cuts r 0 ∨ e = .stop r ∨ e = .close j

/-- What an uninterrupted step leaves of a stream whose subscriber is subscribed. -/
lemma upcoming_of_step (hfeeds : Feeds s r 0 conn) (hsubscribed : conn.state = .subscribed)
    (hx : s.streams[j]? = some x) (hr : x.replica = r) (hlistening : x.listening = true)
    (hsettled : x.Settled) (hstep : s.step F cfg e = some s') (he : ¬ e.Interrupts r j) :
    ∃ y conn', Feeds s' r 0 conn' ∧ conn'.state = .subscribed ∧ s'.streams[j]? = some y ∧
      y.replica = r ∧ y.listening = true ∧ y.Settled ∧
      y.arrived ++ messagesOf F conn'.queue =
        x.arrived ++ messagesOf F conn.queue ++ e.published F := by
  obtain ⟨conn', hfeeds', hmoved⟩ := hfeeds.step hstep fun h => he (.inl h)
  obtain ⟨hstate, hqueue⟩ := hmoved.subscribed hsubscribed fun h => he (.inr (.inl h))
  obtain ⟨y, hy, hlistens, hgrown⟩ := grown_of_step hfeeds hstep hx hr hsettled
  have hstays : y.listening = true := by
    rcases hlistens with h | ⟨-, h⟩
    · rw [h, hlistening]
    · exact absurd (.inr (.inr h)) he
  refine ⟨y, conn', hfeeds', hstate, hy, hgrown.replica.trans hr, hstays, hgrown.settled, ?_⟩
  rw [hgrown.arrived, hlistening, if_pos rfl, List.append_assoc, hqueue, List.append_assoc]

lemma upcoming_of_run (hfeeds : Feeds s r 0 conn) (hsubscribed : conn.state = .subscribed)
    (hx : s.streams[j]? = some x) (hr : x.replica = r) (hlistening : x.listening = true)
    (hsettled : x.Settled) (hrun : (StreamSystem.lts F cfg).run s es = some t)
    (hes : ∀ e ∈ es, ¬ e.Interrupts r j) :
    ∃ y conn', Feeds t r 0 conn' ∧ t.streams[j]? = some y ∧
      y.arrived ++ messagesOf F conn'.queue =
        x.arrived ++ messagesOf F conn.queue ++ es.flatMap (·.published F) := by
  induction es generalizing s x conn with
  | nil =>
    obtain rfl : s = t := Option.some.inj hrun
    exact ⟨x, conn, hfeeds, hx, by simp⟩
  | cons e es ih =>
    obtain ⟨s', he, hrun'⟩ := Lts.run_cons_inv hrun
    obtain ⟨he', hes'⟩ := List.forall_mem_cons.1 hes
    obtain ⟨x', conn', hfeeds', hstate, hx', hr', hlistens, hsettled', hsame⟩ :=
      upcoming_of_step hfeeds hsubscribed hx hr hlistening hsettled he he'
    obtain ⟨y, conn'', hlast, hy, hupcoming⟩ :=
      ih hfeeds' hstate hx' hr' hlistens hsettled' hrun' hes'
    refine ⟨y, conn'', hlast, hy, ?_⟩
    rw [hupcoming, hsame, List.flatMap_cons, List.append_assoc]

/-- As long as nothing interrupts a stream, its client dispatches all that is published: this
is what it has dispatched, what it will dispatch of what is written, and what is on its way
to the subscriber. -/
theorem dispatched_all {es₀ : List StreamStep} (hr : x.replica < n)
    (hrun₀ : (StreamSystem.lts F cfg).run (.init n) es₀ = some s)
    (hstart : .start x.replica ∉ es₀) (hx : s.streams[j]? = some x)
    (hlistening : x.listening = true) (hconn : s.connection? x.replica 0 = some conn)
    (hsubscribed : conn.state = .subscribed) (hrun : (StreamSystem.lts F cfg).run s es = some t)
    (hes : ∀ e ∈ es, ¬ e.Interrupts x.replica j) :
    ∃ y conn', t.streams[j]? = some y ∧ t.connection? x.replica 0 = some conn' ∧
      y.dispatched ++ (y.parser.feedAll y.wire).2 ++ messagesOf F conn'.queue =
        x.dispatched ++ (x.parser.feedAll x.wire).2 ++ messagesOf F conn.queue ++
          es.flatMap (·.published F) := by
  obtain ⟨conn₀, hfeeds, -, hstreams⟩ := accounted_of_run hr hrun₀ hstart
  obtain rfl := Option.some.inj (hfeeds.get.symm.trans hconn)
  obtain ⟨y, conn', hfeeds', hy, hupcoming⟩ :=
    upcoming_of_run hfeeds hsubscribed hx rfl hlistening (hstreams j x hx rfl).1 hrun hes
  exact ⟨y, conn', hy, hfeeds'.get, hupcoming⟩

/-- What the client of the example gets, and what is on its way to it. -/
theorem dispatched_all_of_heartbeat : ∃ t y conn,
    (StreamSystem.lts .integers sampleConfig).run openedState publishedEvents = some t ∧
      t.streams[0]? = some y ∧ t.connection? 0 0 = some conn ∧
      y.dispatched ++ (y.parser.feedAll y.wire).2 ++ messagesOf .integers conn.queue =
        publishedEvents.flatMap (·.published .integers) := by
  obtain ⟨t, hrun, -⟩ := Option.map_eq_some_iff.1 observed_publishedEvents
  have hconn₀ : openedState.connection? 0 0 = some ⟨.subscribed, false, []⟩ := rfl
  obtain ⟨y, conn, hy, hconn, hupcoming⟩ := dispatched_all (x := .opened 0) (j := 0) (n := 1)
    (by decide) run_openedEvents (by simp [openedEvents]) rfl rfl hconn₀ rfl hrun
    (by simp [publishedEvents, StreamStep.Interrupts, StreamStep.Cuts])
  have hnothing := (EventStream.settled_opened 0).2
  rw [EventStream.arrived] at hnothing
  rw [hnothing] at hupcoming
  exact ⟨t, y, conn, hrun, hy, hconn, by simpa [messagesOf] using hupcoming⟩

end InveniOps.Realtime
