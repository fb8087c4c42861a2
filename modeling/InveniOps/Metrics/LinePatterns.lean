import InveniOps.Metrics.PrometheusText

/-!
# What the patterns match

The patterns of the reader on what the page prints: how far a quoted value reaches, what the
groups of a pair and of a line capture, and that a value between braces ends at the first
closing brace.
-/

namespace InveniOps.Metrics

open Lib Regex Domain

variable {F : NumberFormat}

/-! ### Escaped values -/

/-- What a character of a label value is escaped to. -/
def escapedChar (c : Char) : Text :=
  if c = '\\' then ['\\', '\\']
  else if c = '"' then ['\\', '"']
  else if c = '\n' then ['\\', 'n']
  else [c]

lemma escapeLabelValue_eq (value : Text) :
    escapeLabelValue value = value.flatMap escapedChar := by
  simp only [escapeLabelValue, replaceAll_char, List.flatMap_assoc]
  refine List.flatMap_congr fun c _ => ?_
  by_cases hbackslash : c = '\\'
  · subst hbackslash
    rfl
  · by_cases hquote : c = '"'
    · subst hquote
      rfl
    · simp [escapedChar, hbackslash, hquote]

/-- The escapes of a label value that the reader undoes leave those of line breaks. -/
def readValue (value : Text) : Text :=
  value.flatMap fun c => if c = '\n' then ['\\', 'n'] else [c]

/-- An escaped character, after the escapes of quotes have been undone. -/
def halfEscapedChar (c : Char) : Text := if c = '"' then ['"'] else escapedChar c

lemma escaped_head (value : Text) : (value.flatMap escapedChar).head? ≠ some '"' := by
  cases value with
  | nil => nofun
  | cons c value =>
    simp only [List.flatMap_cons, escapedChar]
    split_ifs with hbackslash hquote hnewline
    · exact fun h => absurd (Option.some.inj h) (by decide)
    · exact fun h => absurd (Option.some.inj h) (by decide)
    · exact fun h => absurd (Option.some.inj h) (by decide)
    · exact fun h => hquote (Option.some.inj h)

lemma unescape_quotes (value : Text) :
    replaceAll ['\\', '"'] ['"'] (value.flatMap escapedChar) = value.flatMap halfEscapedChar := by
  induction value with
  | nil => rfl
  | cons c value ih =>
    have hhead := escaped_head value
    rw [List.flatMap_cons, List.flatMap_cons, ← ih]
    generalize value.flatMap escapedChar = rest at hhead
    by_cases hquote : c = '"'
    · subst hquote
      exact replaceAll_append (List.cons_ne_nil _ _) _
    by_cases hbackslash : c = '\\'
    · -- its second backslash is not taken together with what follows
      subst hbackslash
      have hinitial : ¬ ['\\', '"'] <+: '\\' :: rest := by
        rintro ⟨tail, htail⟩
        obtain rfl := (List.cons.inj htail).2
        exact hhead rfl
      show replaceAll _ _ ('\\' :: '\\' :: rest) = _
      rw [replaceAll_cons (by simp [List.cons_prefix_cons]), replaceAll_cons hinitial]
      rfl
    by_cases hnewline : c = '\n'
    · subst hnewline
      show replaceAll _ _ ('\\' :: 'n' :: rest) = _
      rw [replaceAll_cons (by simp [List.cons_prefix_cons]),
        replaceAll_cons (by simp [List.cons_prefix_cons])]
      rfl
    · have hescaped : escapedChar c = [c] := by
        simp [escapedChar, hquote, hbackslash, hnewline]
      rw [halfEscapedChar, if_neg hquote, hescaped, List.singleton_append,
        replaceAll_cons (by simp [List.cons_prefix_cons, Ne.symm hbackslash])]
      rfl

lemma unescape_backslashes (value : Text) :
    replaceAll ['\\', '\\'] ['\\'] (value.flatMap halfEscapedChar) = readValue value := by
  induction value with
  | nil => rfl
  | cons c value ih =>
    rw [readValue, List.flatMap_cons, List.flatMap_cons, ← readValue, ← ih]
    by_cases hbackslash : c = '\\'
    · subst hbackslash
      exact replaceAll_append (List.cons_ne_nil _ _) _
    · by_cases hnewline : c = '\n'
      · subst hnewline
        show replaceAll _ _ ('\\' :: 'n' :: value.flatMap halfEscapedChar) = _
        rw [replaceAll_cons (by simp [List.cons_prefix_cons]),
          replaceAll_cons (by simp [List.cons_prefix_cons])]
        rfl
      · have hhalf : halfEscapedChar c = [c] := by
          simp only [halfEscapedChar, escapedChar, hbackslash, hnewline, if_false]
          split_ifs with hquote
          · rw [hquote]
          · rfl
        rw [hhalf, if_neg hnewline, List.singleton_append,
          replaceAll_cons (by simp [List.cons_prefix_cons, Ne.symm hbackslash])]
        rfl

/-- What the reader makes of an escaped value. -/
lemma unescape_escape (value : Text) :
    unescapeLabelValue (escapeLabelValue value) = readValue value := by
  rw [unescapeLabelValue, escapeLabelValue_eq, unescape_quotes, unescape_backslashes]

lemma readValue_eq_iff {value : Text} : readValue value = value ↔ '\n' ∉ value := by
  have hchar : ∀ c : Char, (if c = '\n' then ['\\', 'n'] else [c]) = [c] ∨
      1 < (if c = '\n' then ['\\', 'n'] else [c]).length := by
    intro c
    split_ifs
    · exact .inr (by decide)
    · exact .inl rfl
  rw [readValue, flatMap_eq_self_iff hchar]
  constructor
  · intro hall hmem
    exact absurd (hall _ hmem) (by decide)
  · intro hmem c hc
    refine if_neg ?_
    rintro rfl
    exact hmem hc

lemma mem_escapeLabelValue {value : Text} : '\n' ∉ escapeLabelValue value := by
  rw [escapeLabelValue_eq, List.mem_flatMap]
  rintro ⟨c, -, hc⟩
  unfold escapedChar at hc
  split_ifs at hc with hbackslash hquote hnewline
  · exact absurd hc (by decide)
  · exact absurd hc (by decide)
  · exact absurd hc (by decide)
  · exact hnewline (List.mem_singleton.1 hc).symm

lemma brace_mem_escapeLabelValue {value : Text} :
    '}' ∈ escapeLabelValue value ↔ '}' ∈ value := by
  rw [escapeLabelValue_eq, List.mem_flatMap]
  constructor
  · rintro ⟨c, hmem, hc⟩
    unfold escapedChar at hc
    split_ifs at hc
    · exact absurd hc (by decide)
    · exact absurd hc (by decide)
    · exact absurd hc (by decide)
    · rwa [List.mem_singleton.1 hc]
  · exact fun hmem => ⟨'}', hmem, by decide⟩

/-! ### Pairs -/

/-- One round of `quotedRegex`. -/
def quotedStep (text : Text) : Option Text :=
  (takeChar (fun c => c != '"' && c != '\\') text).or
    ((takeChar (· = '\\') text).bind (takeChar isDot))

lemma steps_quoted : (alt (chars fun c => c != '"' && c != '\\')
    (seq (lit '\\') (chars isDot))).Steps quotedStep := by
  refine (steps_chars _).alt ((steps_chars _).seq (steps_chars _)) ?_
  rintro (_ | ⟨c, text⟩) rest htaken
  · rfl
  · simp only [takeChar] at htaken ⊢
    split_ifs at htaken with hc
    have hbackslash : c ≠ '\\' := by
      rintro rfl
      cases hc
    simp [hbackslash]

lemma quotedStep_escapedChar (c : Char) (rest : Text) :
    quotedStep (escapedChar c ++ rest) = some rest := by
  unfold escapedChar
  split_ifs with hbackslash hquote hnewline
  · rfl
  · rfl
  · rfl
  · simp [quotedStep, takeChar, hbackslash, hquote]

lemma exhausts_escapeLabelValue (value rest : Text) :
    Exhausts quotedStep (escapeLabelValue value ++ '"' :: rest) ('"' :: rest) := by
  rw [escapeLabelValue_eq]
  induction value with
  | nil => exact .stop rfl
  | cons c value ih =>
    rw [List.flatMap_cons, List.append_assoc]
    exact .step (quotedStep_escapedChar c _) ih

/-- What the groups of a pair capture. -/
structure CapturesPair (captures : Captures) (label : Text × Text) : Prop where
  key : captures 1 = some label.1
  value : captures 2 = some (escapeLabelValue label.2)

/-- Whether the text is the name of a label. -/
def isLabelKey (key : Text) : Bool := isWord isLabelStart isLabelChar key

lemma matchAt_pair {label : Text × Text} (hkey : isLabelKey label.1 = true) (rest : Text) :
    ∃ captures, pairRegex.matchAt (formatLabel label ++ rest) = some ⟨rest, captures⟩ ∧
      CapturesPair captures label := by
  obtain ⟨key, value⟩ := label
  have htext : formatLabel (key, value) ++ rest
      = key ++ '=' :: '"' :: (escapeLabelValue value ++ '"' :: rest) := by
    simp [formatLabel]
  refine ⟨Function.update (Function.update (fun _ => none) 1 (some key)) 2
    (some (escapeLabelValue value)), ?_, ⟨by simp, by simp⟩⟩
  simp only [matchAt, Progress.start, pairRegex, htext]
  rw [run_seq, run_group, run_word hkey]
  · simp only [Progress.capture_mk, run_seq, run_lit_cons, if_true, run_group]
    rw [quotedRegex, run_star_of_exhausts steps_quoted (exhausts_escapeLabelValue value rest)]
    · simp
    · -- the closing quote is none of the characters of a round
      rintro (_ | ⟨c, text⟩) last hstep
      · cases hstep
      · have hquote : c ≠ '"' := by
          rintro rfl
          cases hstep
        simp [hquote]
  · rintro c ⟨⟩
    rfl
  · intro c text hc
    have heq : c ≠ '=' := by
      rintro rfl
      cases hc
    simp [heq]

/-- The labels between their braces. -/
def labelText (labels : List (Text × Text)) : Text := [','].intercalate (labels.map formatLabel)

/-- The pairs of a list of labels are found one after the other. -/
lemma matchesFrom_labelText {labels : List (Text × Text)}
    (hkeys : ∀ label ∈ labels, isLabelKey label.1 = true) {fuel : ℕ}
    (hfuel : (labelText labels).length < fuel) :
    List.Forall₂ CapturesPair (pairRegex.matchesFrom fuel (labelText labels)) labels := by
  induction labels generalizing fuel with
  | nil =>
    cases fuel with
    | zero => omega
    | succ fuel => exact .nil
  | cons label labels ih =>
    obtain ⟨hkey, hkeys⟩ := List.forall_mem_cons.1 hkeys
    have hlength : 2 ≤ (formatLabel label).length := by
      simp only [formatLabel, List.length_append, List.length_cons]
      omega
    cases labels with
    | nil =>
      obtain ⟨captures, hmatch, hpair⟩ := matchAt_pair hkey []
      have htext : labelText [label] = formatLabel label ++ [] := by simp [labelText]
      rw [htext, List.length_append] at hfuel
      obtain ⟨fuel, rfl⟩ : ∃ n, fuel = n + 2 := ⟨fuel - 2, by omega⟩
      rw [htext, matchesFrom_of_match hmatch]
      exact .cons hpair .nil
    | cons next labels =>
      have htext : labelText (label :: next :: labels)
          = formatLabel label ++ ',' :: labelText (next :: labels) := by
        simp [labelText, List.intercalate_cons_cons]
      obtain ⟨captures, hmatch, hpair⟩ := matchAt_pair hkey (',' :: labelText (next :: labels))
      rw [htext, List.length_append, List.length_cons] at hfuel
      obtain ⟨fuel, rfl⟩ : ∃ n, fuel = n + 2 := ⟨fuel - 2, by omega⟩
      rw [htext, matchesFrom_of_match hmatch, matchesFrom_of_not_match rfl]
      exact .cons hpair (ih hkeys (by omega))

lemma setLabel_of_new {labels : List (Text × Text)} {key : Text}
    (hproto : key ≠ "__proto__".toList) (hnew : key ∉ labels.map (·.1)) (value : Text) :
    setLabel labels key value = labels ++ [(key, value)] := by
  have hany : ¬ labels.any (·.1 = key) = true := by
    simp only [List.any_eq_true, decide_eq_true_eq]
    rintro ⟨label, hmem, rfl⟩
    exact hnew (List.mem_map_of_mem hmem)
  rw [setLabel, if_neg hproto, if_neg hany]

lemma foldl_setLabel {found : List Captures} {labels : List (Text × Text)}
    (hfound : List.Forall₂ CapturesPair found labels) {before : List (Text × Text)}
    (hproto : ∀ label ∈ labels, label.1 ≠ "__proto__".toList)
    (hnodup : ((before ++ labels).map (·.1)).Nodup) :
    found.foldl (fun labels pairMatch => setLabel labels ((pairMatch 1).getD [])
        (unescapeLabelValue ((pairMatch 2).getD []))) before
      = before ++ labels.map fun label => (label.1, readValue label.2) := by
  induction hfound generalizing before with
  | nil => simp
  | @cons captures label found labels hpair _ ih =>
    obtain ⟨hne, hproto⟩ := List.forall_mem_cons.1 hproto
    have hnew : label.1 ∉ before.map (·.1) := by
      simp only [List.map_append, List.map_cons] at hnodup
      exact fun hmem => (List.disjoint_of_nodup_append hnodup) hmem List.mem_cons_self
    simp only [List.foldl_cons, hpair.key, hpair.value, Option.getD_some, unescape_escape]
    rw [setLabel_of_new hne hnew, ih hproto]
    · simp
    · simpa [List.map_append] using hnodup

/-- The keys of labels: words, and none of them twice. -/
structure LabelKeys (keys : List Text) : Prop where
  words : ∀ key ∈ keys, isLabelKey key = true
  proto : "__proto__".toList ∉ keys
  nodup : keys.Nodup

lemma parseLabels_labelText {labels : List (Text × Text)}
    (hkeys : LabelKeys (labels.map (·.1))) : parseLabels (labelText labels)
      = labels.map fun label => (label.1, readValue label.2) := by
  have hfound := matchesFrom_labelText
    (fun label hmem => hkeys.words _ (List.mem_map_of_mem hmem)) (Nat.lt_succ_self _)
  refine foldl_setLabel hfound ?_ hkeys.nodup
  intro label hmem heq
  exact hkeys.proto (heq ▸ List.mem_map_of_mem hmem)

/-! ### Lines -/

lemma run_valueRegex_of_not_space {c : Char} {text : Text} {captures : Captures}
    {k : Progress → Option Progress} (hc : isJsSpace c = false) :
    valueRegex.run ⟨c :: text, captures⟩ k = none := by
  simp [valueRegex, hc]

/-- After its white space, a line ends with one word, and white space. -/
lemma run_valueRegex {c : Char} (hc : isJsSpace c = true) (text : Text) (captures : Captures) :
    valueRegex.run ⟨c :: text, captures⟩ some =
      match text.dropWhile isJsSpace with
      | [] => none
      | d :: word =>
        if (word.dropWhile (fun c => !isJsSpace c)).dropWhile isJsSpace = [] then
          some ⟨[], Function.update captures 4 (some ((d :: word).take
            ((d :: word).length - (word.dropWhile (fun c => !isJsSpace c)).length)))⟩
        else none := by
  simp only [valueRegex, run_seq, run_plus, run_chars_cons, hc, if_true]
  rw [run_star_chars fun d rest hd => by simp [hd]]
  cases hword : text.dropWhile isJsSpace with
  | nil => rfl
  | cons d word =>
    have hd : isJsSpace d = false := by
      have hhead := List.head?_dropWhile_not isJsSpace text
      rw [hword] at hhead
      simpa using hhead
    simp only [run_group, run_plus, run_chars_cons, hd, Bool.not_false, if_true]
    rw [run_star_chars]
    · simp only [Progress.capture_mk]
      rw [run_star_chars fun e rest _ => by simp]
      simp only [run_endOfInput]
      split_ifs with hrest
      · rw [hrest]
      · rfl
    · intro e rest he
      have hspace : isJsSpace e = false := by simpa using he
      simp only [Progress.capture_mk]
      rw [run_star_chars fun e rest _ => by simp, List.dropWhile_cons_of_neg (by simp [hspace])]
      simp

/-- The text of a value: one word. -/
structure ValueText (value : Text) : Prop where
  ne_nil : value ≠ []
  no_space : ∀ c ∈ value, isJsSpace c = false

lemma run_valueRegex_value {value : Text} (hvalue : ValueText value) (captures : Captures) :
    valueRegex.run ⟨' ' :: value, captures⟩ some
      = some ⟨[], Function.update captures 4 (some value)⟩ := by
  have hnone : value.dropWhile isJsSpace = value := by
    cases value with
    | nil => rfl
    | cons c value =>
      exact List.dropWhile_cons_of_neg (by simp [hvalue.no_space c List.mem_cons_self])
  rw [run_valueRegex rfl, hnone]
  cases value with
  | nil => exact absurd rfl hvalue.ne_nil
  | cons c value =>
    have hall : value.dropWhile (fun c => !isJsSpace c) = [] :=
      List.dropWhile_eq_nil_iff.2 fun d hd => by
        simp [hvalue.no_space d (List.mem_cons_of_mem _ hd)]
    simp [hall]

/-- Two words are not one value. -/
lemma run_valueRegex_words {value : Text} (hvalue : ValueText value) (text : Text)
    (captures : Captures) :
    valueRegex.run ⟨text ++ '}' :: ' ' :: value, captures⟩ some = none := by
  cases text with
  | nil => exact run_valueRegex_of_not_space rfl
  | cons c text =>
    cases hc : isJsSpace c with
    | false => exact run_valueRegex_of_not_space hc
    | true =>
      have hbrace : '}' ∈ text ++ ['}'] := List.mem_append_right _ (List.mem_singleton_self _)
      have hfirst : (text ++ '}' :: ' ' :: value).dropWhile isJsSpace
          = (text ++ ['}']).dropWhile isJsSpace ++ ' ' :: value := by
        rw [← dropWhile_append_of_mem hbrace rfl, List.append_assoc]
        rfl
      rw [List.cons_append, run_valueRegex hc, hfirst]
      cases hword : (text ++ ['}']).dropWhile isJsSpace with
      | nil =>
        have hall := List.dropWhile_eq_nil_iff.1 hword '}' hbrace
        cases hall
      | cons d word =>
        -- the second word is left
        have hrest : ((word ++ ' ' :: value).dropWhile fun c => !isJsSpace c)
            = (word ++ [' ']).dropWhile (fun c => !isJsSpace c) ++ value := by
          rw [← dropWhile_append_of_mem (x := ' ') (by simp) rfl, List.append_assoc]
          rfl
        rw [List.cons_append]
        simp only [hrest]
        refine if_neg fun hnil => ?_
        obtain ⟨e, he⟩ := List.exists_mem_of_ne_nil _ hvalue.ne_nil
        have hspace := List.dropWhile_eq_nil_iff.1 hnil e (List.mem_append_right _ he)
        rw [hvalue.no_space e he] at hspace
        cases hspace

lemma run_labelsRegex_of_ne {c : Char} (hc : c ≠ '{') (text : Text) (captures : Captures)
    (k : Progress → Option Progress) :
    labelsRegex.run ⟨c :: text, captures⟩ k = k ⟨c :: text, captures⟩ := by
  simp [labelsRegex, hc]

/-- What stands between braces ends at the first closing brace. -/
lemma run_labelsRegex {inner : Text} (hinner : '}' ∉ inner) (rest : Text) (captures : Captures)
    {k : Progress → Option Progress}
    (hk : k ⟨'{' :: (inner ++ '}' :: rest), captures⟩ = none) :
    labelsRegex.run ⟨'{' :: (inner ++ '}' :: rest), captures⟩ k
      = k ⟨rest, Function.update (Function.update captures 3 (some inner)) 2
          (some ('{' :: (inner ++ ['}'])))⟩ := by
  have hdrop : (inner ++ '}' :: rest).dropWhile (· != '}') = '}' :: rest := by
    rw [List.dropWhile_append_of_pos]
    · rfl
    · rintro c hc
      simp only [bne_iff_ne, ne_eq]
      rintro rfl
      exact hinner hc
  simp only [labelsRegex, run_opt, run_group, run_seq, run_lit_cons, if_true, hk, Option.or_none]
  rw [run_star_chars]
  · have htext : '{' :: (inner ++ '}' :: rest) = '{' :: (inner ++ ['}']) ++ rest := by simp
    have houter : ('{' :: (inner ++ '}' :: rest)).take
        (('{' :: (inner ++ '}' :: rest)).length - rest.length) = '{' :: (inner ++ ['}']) := by
      rw [htext, List.length_append, Nat.add_sub_cancel, List.take_left]
    simp only [hdrop, Progress.capture_mk, run_lit_cons, if_true, houter]
    simp
  · intro c text hc
    have hne : c ≠ '}' := by simpa using hc
    simp [hne]

lemma isJsSpace_of_ascii {c : Char} (h : 0x21 ≤ c.toNat) (h' : c.toNat ≤ 0x7E) :
    isJsSpace c = false := by
  simp only [isJsSpace]
  grind

lemma ascii_of_isLetter {c : Char} (h : isLetter c = true) : 0x21 ≤ c.toNat ∧ c.toNat ≤ 0x7E := by
  simp only [isLetter, Bool.or_eq_true, Bool.and_eq_true, decide_eq_true_eq, Char.le_def,
    UInt32.le_iff_toNat_le] at h
  rcases h with h | h <;> simp at h <;> omega

lemma ascii_of_isDigit {c : Char} (h : c.isDigit = true) : 0x21 ≤ c.toNat ∧ c.toNat ≤ 0x7E := by
  simp only [Char.isDigit, Bool.and_eq_true, decide_eq_true_eq, UInt32.le_iff_toNat_le] at h
  simp at h
  omega

lemma isJsSpace_of_isNameChar {c : Char} (h : isNameChar c = true) : isJsSpace c = false := by
  have hascii : 0x21 ≤ c.toNat ∧ c.toNat ≤ 0x7E := by
    simp only [isNameChar, isNameStart, Bool.or_eq_true, beq_iff_eq] at h
    rcases h with ((hletter | rfl) | rfl) | hdigit
    · exact ascii_of_isLetter hletter
    · decide
    · decide
    · exact ascii_of_isDigit hdigit
  exact isJsSpace_of_ascii hascii.1 hascii.2

end InveniOps.Metrics
