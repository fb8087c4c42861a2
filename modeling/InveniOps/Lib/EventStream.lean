import Mathlib.Data.List.TakeWhile

/-!
# Event streams

The format `text/event-stream` and how an `EventSource` interprets it, character by
character, so that it does not matter how a stream is cut into chunks.  Messages that
were written with their type and data on a line each are dispatched as they are, and
comments are not dispatched at all.
-/

namespace InveniOps.Lib

/-- A dispatched event. -/
structure StreamMessage where
  type : List Char
  data : List Char
  lastEventId : List Char
deriving DecidableEq

/-- What is kept between two characters: the line so far, whether a carriage return has just
ended one, and the buffers of the message. -/
structure StreamParser where
  line : List Char
  afterReturn : Bool
  type : List Char
  data : List Char
  lastEventId : List Char
deriving DecidableEq

namespace StreamParser

/-- The parser of a new connection. -/
def start : StreamParser := ⟨[], false, [], [], []⟩

/-- The name of a field and its value, without one leading blank. -/
def fieldOf (line : List Char) : List Char × List Char :=
  match line.dropWhile (· ≠ ':') with
  | ':' :: ' ' :: value => (line.takeWhile (· ≠ ':'), value)
  | ':' :: value => (line.takeWhile (· ≠ ':'), value)
  | _ => (line, [])

variable (P : StreamParser)

/-- The field that names the type of an event. -/
def eventField : List Char := ['e', 'v', 'e', 'n', 't']

/-- The field that carries an event's data. -/
def dataField : List Char := ['d', 'a', 't', 'a']

/-- The effect of a field; `retry` sets a delay that no message shows. -/
def setField (name value : List Char) : StreamParser :=
  if name = eventField then { P with type := value }
  else if name = dataField then { P with data := P.data ++ (value ++ ['\n']) }
  else if name = ['i', 'd'] then
    if '\x00' ∈ value then P else { P with lastEventId := value }
  else P

/-- An empty line: the message, if it has data, and empty buffers. -/
def dispatch : StreamParser × List StreamMessage :=
  if P.data = [] then ({ P with type := [] }, [])
  else
    ({ P with type := [], data := [] },
      [⟨if P.type = [] then "message".toList else P.type, P.data.dropLast, P.lastEventId⟩])

/-- The end of a line. -/
def endLine : StreamParser × List StreamMessage :=
  let Q := { P with line := [] }
  match P.line with
  | [] => Q.dispatch
  | ':' :: _ => (Q, [])
  | line => (Q.setField (fieldOf line).1 (fieldOf line).2, [])

/-- A character: a line ends in a line feed, a carriage return, or both. -/
def feed (c : Char) : StreamParser × List StreamMessage :=
  if c = '\n' ∧ P.afterReturn then ({ P with afterReturn := false }, [])
  else if c = '\n' then endLine { P with afterReturn := false }
  else if c = '\r' then ({ P.endLine.1 with afterReturn := true }, P.endLine.2)
  else ({ P with line := P.line ++ [c], afterReturn := false }, [])

/-- Some characters, with the messages that they dispatch. -/
def feedAll : StreamParser → List Char → StreamParser × List StreamMessage
  | P, [] => (P, [])
  | P, c :: text =>
    ((feedAll (P.feed c).1 text).1, (P.feed c).2 ++ (feedAll (P.feed c).1 text).2)

/-- No line and no message is begun. -/
def Idle : Prop := P.line = [] ∧ P.afterReturn = false ∧ P.type = [] ∧ P.data = []

variable {P}

lemma feedAll_append (text text' : List Char) : P.feedAll (text ++ text') =
    (((P.feedAll text).1.feedAll text').1,
      (P.feedAll text).2 ++ ((P.feedAll text).1.feedAll text').2) := by
  induction text generalizing P with
  | nil => simp [feedAll]
  | cons c text ih =>
    rw [List.cons_append, feedAll, ih]
    simp only [feedAll, List.append_assoc]

/-- A stream is interpreted as its chunks are, one after the other. -/
theorem feedAll_flatten (chunks : List (List Char)) : P.feedAll chunks.flatten =
    chunks.foldl (fun R chunk =>
      ((R.1.feedAll chunk).1, R.2 ++ (R.1.feedAll chunk).2)) (P, []) := by
  have h : ∀ sent : List StreamMessage,
      ((P.feedAll chunks.flatten).1, sent ++ (P.feedAll chunks.flatten).2) =
        chunks.foldl (fun R chunk =>
          ((R.1.feedAll chunk).1, R.2 ++ (R.1.feedAll chunk).2)) (P, sent) := by
    induction chunks generalizing P with
    | nil => simp [feedAll]
    | cons chunk chunks ih =>
      intro sent
      rw [List.flatten_cons, feedAll_append, List.foldl_cons, ← ih, List.append_assoc]
  exact h []

/-! ### Lines -/

/-- A text without line breaks. -/
def OneLine (text : List Char) : Prop := ∀ c ∈ text, c ≠ '\n' ∧ c ≠ '\r'

instance decidableOneLine (text : List Char) : Decidable (OneLine text) :=
  List.decidableBAll (fun c : Char => c ≠ '\n' ∧ c ≠ '\r') text

lemma feedAll_oneLine {text : List Char} (htext : OneLine text) (hreturn : P.afterReturn = false) :
    P.feedAll text = ({ P with line := P.line ++ text }, []) := by
  induction text generalizing P with
  | nil => simp [feedAll]
  | cons c text ih =>
    obtain ⟨hc, htext⟩ := List.forall_mem_cons.1 htext
    rw [feedAll, feed, if_neg fun h => hc.1 h.1, if_neg hc.1, if_neg hc.2, ih htext rfl]
    simp [hreturn]

/-- A line with its line feed. -/
lemma feedAll_line {text : List Char} (htext : OneLine text) (hline : P.line = [])
    (hreturn : P.afterReturn = false) :
    P.feedAll (text ++ ['\n']) = endLine { P with line := text } := by
  rw [feedAll_append, feedAll_oneLine htext hreturn, hline]
  simp [feedAll, feed, hreturn]

lemma fieldOf_append {name : List Char} (value : List Char) (hname : ':' ∉ name) :
    fieldOf (name ++ ':' :: ' ' :: value) = (name, value) := by
  have htake : ∀ c ∈ name, decide (c ≠ ':') = true := fun c hc =>
    decide_eq_true fun h => hname (h ▸ hc)
  rw [fieldOf, List.dropWhile_append_of_pos htake, List.takeWhile_append_of_pos htake]
  simp

/-! ### Messages -/

/-- A message as it is written, with its type and its data on a line each. -/
def messageText (type data : List Char) : List Char :=
  eventField ++ ':' :: ' ' :: type ++ ['\n'] ++ (dataField ++ ':' :: ' ' :: data ++ ['\n']) ++
    ['\n']

/-- A comment with the empty line behind it. -/
def commentText (comment : List Char) : List Char := ':' :: comment ++ ['\n'] ++ ['\n']

lemma OneLine.append {text text' : List Char} (h : OneLine text) (h' : OneLine text') :
    OneLine (text ++ text') := fun c hc => (List.mem_append.1 hc).elim (h c) (h' c)

/-- A line with a field. -/
lemma feedAll_field {name value : List Char} (hname : OneLine name) (hcolon : ':' ∉ name)
    (hne : name ≠ []) (hvalue : OneLine value) (hline : P.line = [])
    (hreturn : P.afterReturn = false) :
    P.feedAll (name ++ ':' :: ' ' :: value ++ ['\n']) = (P.setField name value, []) := by
  have htext : OneLine (name ++ ':' :: ' ' :: value) :=
    hname.append (List.forall_mem_cons.2 ⟨by decide, List.forall_mem_cons.2 ⟨by decide, hvalue⟩⟩)
  obtain ⟨c, name', rfl⟩ := List.exists_cons_of_ne_nil hne
  have hc : c ≠ ':' := fun h => hcolon (h ▸ List.mem_cons_self)
  have hfield := fieldOf_append value hcolon
  rw [feedAll_line htext hline hreturn]
  obtain ⟨line, afterReturn, type, data, lastEventId⟩ := P
  cases hline
  rw [endLine]
  split
  · rename_i h
    cases h
  · rename_i h
    cases h
    exact absurd rfl hc
  · rw [hfield]

/-- An empty line. -/
lemma feedAll_empty (hline : P.line = []) (hreturn : P.afterReturn = false) :
    P.feedAll ['\n'] = P.dispatch := by
  obtain ⟨line, afterReturn, type, data, lastEventId⟩ := P
  cases hline
  cases hreturn
  simp [feedAll, feed, endLine]

/-- A message that was written is dispatched, and nothing of it is left. -/
theorem feedAll_messageText {type data : List Char} (hP : P.Idle) (htype : OneLine type)
    (hdata : OneLine data) (hne : type ≠ []) :
    P.feedAll (messageText type data) = (P, [⟨type, data, P.lastEventId⟩]) := by
  obtain ⟨line, afterReturn, type₀, data₀, lastEventId⟩ := P
  obtain ⟨rfl, rfl, rfl, rfl⟩ := hP
  have hevent : feedAll ⟨[], false, [], [], lastEventId⟩
      (eventField ++ ':' :: ' ' :: type ++ ['\n']) =
        (⟨[], false, type, [], lastEventId⟩, []) :=
    feedAll_field (by decide) (by decide) (by decide) htype rfl rfl
  have hdatum : feedAll ⟨[], false, type, [], lastEventId⟩
      (dataField ++ ':' :: ' ' :: data ++ ['\n']) =
        (⟨[], false, type, data ++ ['\n'], lastEventId⟩, []) :=
    feedAll_field (by decide) (by decide) (by decide) hdata rfl rfl
  rw [messageText, feedAll_append, feedAll_append, hevent, hdatum, feedAll_empty rfl rfl]
  simp [dispatch, hne]

/-- A comment is passed over. -/
theorem feedAll_commentText {comment : List Char} (hP : P.Idle) (hcomment : OneLine comment) :
    P.feedAll (commentText comment) = (P, []) := by
  obtain ⟨line, afterReturn, type, data, lastEventId⟩ := P
  obtain ⟨rfl, rfl, rfl, rfl⟩ := hP
  have hline : OneLine (':' :: comment) := List.forall_mem_cons.2 ⟨by decide, hcomment⟩
  rw [commentText, feedAll_append, feedAll_line hline rfl rfl]
  simp [endLine, feedAll_empty, dispatch]

end StreamParser

end InveniOps.Lib
