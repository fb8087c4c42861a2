import Mathlib.Data.List.Basic
import Mathlib.Logic.Function.Basic

/-!
# Backtracking patterns

Regular expressions with capturing groups, matched as ECMAScript matches them: of two
alternatives the first one is tried first, and a repetition goes on for as many rounds as
lead to a match of all that follows it.
-/

namespace InveniOps.Lib

/-- `group n` is the capturing group with number `n`, `endOfInput` the assertion `$`. -/
inductive Regex
  | empty
  | endOfInput
  | chars (p : Char → Bool)
  | seq (a b : Regex)
  | alt (a b : Regex)
  | star (a : Regex)
  | group (n : ℕ) (a : Regex)

/-- What the groups have captured. -/
abbrev Captures := ℕ → Option (List Char)

namespace Regex

/-- What is left of the text, and what has been captured before it. -/
structure Progress where
  rest : List Char
  captures : Captures

/-- A match in continuation style: it succeeds only if what follows it does. -/
abbrev Matcher := Progress → (Progress → Option Progress) → Option Progress

/-- The one character. -/
def lit (c : Char) : Regex := chars (· = c)

/-- At least once, greedily. -/
def plus (a : Regex) : Regex := seq a (star a)

/-- The pattern if it matches, else nothing. -/
def opt (a : Regex) : Regex := alt a empty

/-- The groups inside a pattern. -/
def groups : Regex → List ℕ
  | empty | endOfInput | chars _ => []
  | seq a b | alt a b => a.groups ++ b.groups
  | star a => a.groups
  | group n a => n :: a.groups

namespace Progress

/-- The whole text ahead, no group captured. -/
def start (text : List Char) : Progress := ⟨text, fun _ => none⟩

/-- Sets one group's capture. -/
def capture (p : Progress) (n : ℕ) (text : List Char) : Progress :=
  { p with captures := Function.update p.captures n (some text) }

@[simp] lemma capture_mk (rest : List Char) (captures : Captures) (n : ℕ) (text : List Char) :
    (Progress.mk rest captures).capture n text
      = ⟨rest, Function.update captures n (some text)⟩ := rfl

/-- Clears the captures of some groups, as each round of a repetition does. -/
def forget (p : Progress) (groups : List ℕ) : Progress :=
  { p with captures := fun m => if m ∈ groups then none else p.captures m }

end Progress

/-- Greedy repetition.  A round that takes nothing fails. -/
def repeated (round : Matcher) : ℕ → Matcher
  | 0, p, k => k p
  | fuel + 1, p, k =>
    (round p fun q =>
      if q.rest.length < p.rest.length then repeated round fuel q k else none).or (k p)

/-- Match a pattern, and what follows it as `k` says. -/
def run : Regex → Matcher
  | empty, p, k => k p
  | endOfInput, p, k => if p.rest = [] then k p else none
  | chars cls, p, k =>
    match p.rest with
    | [] => none
    | c :: rest => if cls c then k { p with rest } else none
  | seq a b, p, k => a.run p fun q => b.run q k
  | alt a b, p, k => (a.run p k).or (b.run p k)
  -- the groups of a repetition forget their captures in every round
  | star a, p, k => repeated (fun q => a.run (q.forget a.groups)) p.rest.length p k
  | group n a, p, k =>
    a.run p fun q => k (q.capture n (p.rest.take (p.rest.length - q.rest.length)))

/-- The match at the start of a text. -/
def matchAt (a : Regex) (text : List Char) : Option Progress := a.run (.start text) some

/-- The matches of a global pattern, each search going on where the last match ended. -/
def matchesFrom (a : Regex) : ℕ → List Char → List Captures
  | 0, _ => []
  | fuel + 1, text =>
    match a.matchAt text with
    | some m => m.captures :: matchesFrom a fuel m.rest
    | none =>
      match text with
      | [] => []
      | _ :: rest => matchesFrom a fuel rest

/-- What `exec` of a global pattern captures, until it returns `null`.  The pattern matches
no empty text. -/
def allMatches (a : Regex) (text : List Char) : List Captures :=
  a.matchesFrom (text.length + 1) text

section Run

variable {a b : Regex} {cls : Char → Bool} {n : ℕ} {p : Progress} {captures : Captures}
  {k : Progress → Option Progress}

@[simp] lemma run_endOfInput : endOfInput.run p k = if p.rest = [] then k p else none := rfl

@[simp] lemma run_seq : (seq a b).run p k = a.run p fun q => b.run q k := rfl

@[simp] lemma run_opt : (opt a).run p k = (a.run p k).or (k p) := rfl

@[simp] lemma run_plus : (plus a).run p k = a.run p fun q => (star a).run q k := rfl

@[simp] lemma run_group : (group n a).run p k = a.run p fun q =>
    k (q.capture n (p.rest.take (p.rest.length - q.rest.length))) := rfl

@[simp] lemma run_chars_cons {c : Char} {rest : List Char} :
    (chars cls).run ⟨c :: rest, captures⟩ k = if cls c then k ⟨rest, captures⟩ else none := rfl

@[simp] lemma run_lit_cons {c d : Char} {rest : List Char} :
    (lit c).run ⟨d :: rest, captures⟩ k = if d = c then k ⟨rest, captures⟩ else none := by
  simp [lit]

lemma matchesFrom_of_match {text : List Char} {m : Progress} (h : a.matchAt text = some m)
    (fuel : ℕ) : a.matchesFrom (fuel + 1) text = m.captures :: a.matchesFrom fuel m.rest := by
  simp only [matchesFrom, h]

lemma matchesFrom_of_not_match {c : Char} {text : List Char} (h : a.matchAt (c :: text) = none)
    (fuel : ℕ) : a.matchesFrom (fuel + 1) (c :: text) = a.matchesFrom fuel text := by
  simp only [matchesFrom, h]

end Run

/-! ### Patterns that match in one way -/

section Steps

variable {a b : Regex} {f g : List Char → Option (List Char)} {p : Progress}
  {k : Progress → Option Progress}

/-- The pattern matches in one way at most, and leaves the text that `f` says. -/
structure Steps (a : Regex) (f : List Char → Option (List Char)) : Prop where
  run_eq : ∀ p k, a.run p k = (f p.rest).bind fun rest => k { p with rest }
  shrinks : ∀ text rest, f text = some rest → rest.length < text.length
  groups : a.groups = []

/-- Take a character of a class. -/
def takeChar (cls : Char → Bool) : List Char → Option (List Char)
  | [] => none
  | c :: rest => if cls c then some rest else none

lemma steps_chars (cls : Char → Bool) : (chars cls).Steps (takeChar cls) where
  run_eq := by
    rintro ⟨_ | ⟨c, rest⟩, captures⟩ k
    · rfl
    · cases hc : cls c <;> simp [run, takeChar, hc]
  shrinks := by
    rintro (_ | ⟨c, text⟩) rest h
    · cases h
    · simp only [takeChar] at h
      split_ifs at h
      obtain rfl := Option.some.inj h
      exact Nat.lt_succ_self _
  groups := rfl

lemma Steps.seq (ha : a.Steps f) (hb : b.Steps g) :
    (seq a b).Steps fun text => (f text).bind g where
  run_eq p k := by
    simp only [run, ha.run_eq, hb.run_eq, Option.bind_assoc]
  shrinks text rest h := by
    obtain ⟨mid, hf, hg⟩ := Option.bind_eq_some_iff.1 h
    exact Nat.lt_trans (hb.shrinks _ _ hg) (ha.shrinks _ _ hf)
  groups := by simp [Regex.groups, ha.groups, hb.groups]

/-- Two alternatives, of which one at most matches. -/
lemma Steps.alt (ha : a.Steps f) (hb : b.Steps g)
    (hdisjoint : ∀ text rest, f text = some rest → g text = none) :
    (alt a b).Steps fun text => (f text).or (g text) where
  run_eq p k := by
    simp only [run, ha.run_eq, hb.run_eq]
    cases hf : f p.rest with
    | none => simp
    | some rest => simp [hdisjoint _ _ hf]
  shrinks text rest h := by
    rcases Option.or_eq_some_iff.1 h with hf | ⟨-, hg⟩
    · exact ha.shrinks _ _ hf
    · exact hb.shrinks _ _ hg
  groups := by simp [Regex.groups, ha.groups, hb.groups]

/-- One step after the other leads from a text to one where no step is possible. -/
inductive Exhausts (f : List Char → Option (List Char)) : List Char → List Char → Prop
  | stop {text : List Char} (stuck : f text = none) : Exhausts f text text
  | step {text rest last : List Char} (taken : f text = some rest)
      (next : Exhausts f rest last) : Exhausts f text last

lemma exhausts_dropWhile (cls : Char → Bool) (text : List Char) :
    Exhausts (takeChar cls) text (text.dropWhile cls) := by
  induction text with
  | nil => exact .stop rfl
  | cons c rest ih =>
    cases hc : cls c with
    | false =>
      rw [List.dropWhile_cons_of_neg (by simp [hc])]
      exact .stop (by simp [takeChar, hc])
    | true =>
      rw [List.dropWhile_cons_of_pos hc]
      exact .step (by simp [takeChar, hc]) ih

lemma repeated_eq {captures : Captures} {text last : List Char} (ha : a.Steps f)
    (hstuck : ∀ text rest, f text = some rest → k ⟨text, captures⟩ = none)
    (hlast : Exhausts f text last) {fuel : ℕ} (hfuel : text.length ≤ fuel) :
    repeated (fun q => a.run (q.forget a.groups)) fuel ⟨text, captures⟩ k
      = k ⟨last, captures⟩ := by
  have hforget : ∀ p : Progress, p.forget a.groups = p := fun p => by
    simp [Progress.forget, ha.groups]
  -- the rounds follow the steps
  induction hlast generalizing fuel with
  | @stop text stuck =>
    cases fuel with
    | zero => rfl
    | succ fuel => simp [repeated, hforget, ha.run_eq, stuck]
  | @step text rest last taken next ih =>
    have hshrinks := ha.shrinks _ _ taken
    cases fuel with
    | zero => omega
    | succ fuel =>
      simp only [repeated, hforget, ha.run_eq, taken, Option.bind_some, hshrinks, if_true]
      rw [hstuck _ _ taken, Option.or_none]
      simp only [hforget] at ih
      exact ih (by omega)

/-- A repetition that what follows it cannot cut short takes all the rounds there are. -/
lemma run_star_of_exhausts {captures : Captures} {text last : List Char} (ha : a.Steps f)
    (hlast : Exhausts f text last)
    (hstuck : ∀ text rest, f text = some rest → k ⟨text, captures⟩ = none) :
    (star a).run ⟨text, captures⟩ k = k ⟨last, captures⟩ :=
  repeated_eq ha hstuck hlast (Nat.le_refl _)

lemma run_star_chars {cls : Char → Bool} {captures : Captures} {text : List Char}
    (hstuck : ∀ c rest, cls c = true → k ⟨c :: rest, captures⟩ = none) :
    (star (chars cls)).run ⟨text, captures⟩ k = k ⟨text.dropWhile cls, captures⟩ := by
  refine run_star_of_exhausts (steps_chars cls) (exhausts_dropWhile cls text) ?_
  rintro (_ | ⟨c, text⟩) rest htaken
  · cases htaken
  · simp only [takeChar] at htaken
    split_ifs at htaken with hc
    exact hstuck c text hc

/-- A character of one class, and more of another one. -/
def isWord (first more : Char → Bool) : List Char → Bool
  | [] => false
  | c :: rest => first c && rest.all more

lemma run_word {first more : Char → Bool} {captures : Captures} {word rest : List Char}
    (hword : isWord first more word = true) (hrest : ∀ c ∈ rest.head?, more c = false)
    (hstuck : ∀ c rest, more c = true → k ⟨c :: rest, captures⟩ = none) :
    (seq (chars first) (star (chars more))).run ⟨word ++ rest, captures⟩ k
      = k ⟨rest, captures⟩ := by
  cases word with
  | nil => cases hword
  | cons c word =>
    simp only [isWord, Bool.and_eq_true, List.all_eq_true] at hword
    have hdrop : rest.dropWhile more = rest := by
      cases rest with
      | nil => rfl
      | cons d rest => exact List.dropWhile_cons_of_neg (by simp [hrest d rfl])
    rw [List.cons_append, run_seq, run_chars_cons, if_pos hword.1, run_star_chars hstuck,
      List.dropWhile_append_of_pos hword.2, hdrop]

end Steps

end Regex

/-! ### Replacement of a literal text -/

section Replace

variable (pattern replacement : List Char)

/-- Replaces from left to right, inside an occurrence for the given number of characters more. -/
def replaceFrom : ℕ → List Char → List Char
  | _, [] => []
  | skip + 1, _ :: rest => replaceFrom skip rest
  | 0, c :: rest =>
    if pattern <+: c :: rest then replacement ++ replaceFrom (pattern.length - 1) rest
    else c :: replaceFrom 0 rest

/-- `replace` of a global pattern that is a literal text, and not empty. -/
def replaceAll (text : List Char) : List Char := replaceFrom pattern replacement 0 text

variable {pattern replacement}

lemma replaceFrom_length (w rest : List Char) :
    replaceFrom pattern replacement w.length (w ++ rest) = replaceAll pattern replacement rest := by
  induction w with
  | nil => rfl
  | cons c w ih => exact ih

lemma replaceAll_append (h : pattern ≠ []) (rest : List Char) :
    replaceAll pattern replacement (pattern ++ rest)
      = replacement ++ replaceAll pattern replacement rest := by
  cases pattern with
  | nil => exact absurd rfl h
  | cons c w =>
    have hinitial : c :: w <+: c :: (w ++ rest) := List.prefix_append (c :: w) rest
    simp only [replaceAll, List.cons_append, replaceFrom, hinitial, if_true]
    exact congrArg _ (replaceFrom_length w rest)

lemma replaceAll_cons {c : Char} {rest : List Char} (h : ¬ pattern <+: c :: rest) :
    replaceAll pattern replacement (c :: rest)
      = c :: replaceAll pattern replacement rest := by
  simp only [replaceAll, replaceFrom, h, if_false]

lemma replaceAll_char (d : Char) (text : List Char) : replaceAll [d] replacement text
    = text.flatMap fun c => if c = d then replacement else [c] := by
  induction text with
  | nil => rfl
  | cons c rest ih =>
    by_cases hc : c = d
    · subst hc
      show replaceAll [c] replacement ([c] ++ rest) = _
      rw [replaceAll_append (List.cons_ne_nil _ _), ih]
      simp
    · have hinitial : ¬ [d] <+: c :: rest := by
        simp [List.cons_prefix_cons, Ne.symm hc]
      rw [replaceAll_cons hinitial, ih]
      simp [hc]

end Replace

end InveniOps.Lib
