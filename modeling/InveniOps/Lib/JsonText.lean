import InveniOps.Lib.Numerals

/-!
# JSON texts

`JSON.stringify` without indentation and `JSON.parse`, over strings of Unicode scalar values.
A text that was printed is read as the value that was printed, but for the numbers that JSON
does not have: infinities and `NaN` are printed as `null`, and `-0` as zero.  The text has no
control characters, however strange the strings of the value are.
-/

namespace InveniOps.Lib

/-- A value; the properties of an object are in the order of its text. -/
inductive JsonValue (F : NumberFormat)
  | null
  | bool (b : Bool)
  | num (x : JsNumber F)
  | str (text : List Char)
  | arr (items : List (JsonValue F))
  | obj (properties : List (List Char × JsonValue F))

variable {F : NumberFormat}

/-! ### Printing -/

/-- The hexadecimal digit of a number below 16. -/
def hexDigit (n : ℕ) : Char :=
  ['0', '1', '2', '3', '4', '5', '6', '7', '8', '9', 'a', 'b', 'c', 'd', 'e', 'f'].getD n '0'

/-- A character between quotes. -/
def escaped (c : Char) : List Char :=
  if c = '"' then ['\\', '"']
  else if c = '\\' then ['\\', '\\']
  else if c = '\x08' then ['\\', 'b']
  else if c = '\x0C' then ['\\', 'f']
  else if c = '\n' then ['\\', 'n']
  else if c = '\r' then ['\\', 'r']
  else if c = '\t' then ['\\', 't']
  else if c.toNat < 0x20 then
    ['\\', 'u', '0', '0', hexDigit (c.toNat / 16), hexDigit (c.toNat % 16)]
  else [c]

/-- A string with its quotes. -/
def quoted (text : List Char) : List Char := '"' :: (text.flatMap escaped ++ ['"'])

/-- `SerializeJSONProperty` of a number. -/
def JsNumber.jsonChars : JsNumber F → List Char
  | .finite negative magnitude => (JsNumber.finite negative magnitude).toChars
  | .nan | .infinite _ => ['n', 'u', 'l', 'l']

mutual

/-- `JSON.stringify`. -/
def JsonValue.stringify : JsonValue F → List Char
  | .null => ['n', 'u', 'l', 'l']
  | .bool true => ['t', 'r', 'u', 'e']
  | .bool false => ['f', 'a', 'l', 's', 'e']
  | .num x => x.jsonChars
  | .str text => quoted text
  | .arr [] => ['[', ']']
  | .arr (item :: items) => '[' :: (item.stringify ++ stringifyItems items)
  | .obj [] => ['\x7b', '\x7d']
  | .obj ((key, value) :: properties) =>
    '\x7b' :: (quoted key ++ ':' :: (value.stringify ++ stringifyProperties properties))

/-- The rest of an array, with the bracket that closes it. -/
def stringifyItems : List (JsonValue F) → List Char
  | [] => [']']
  | item :: items => ',' :: (item.stringify ++ stringifyItems items)

/-- The rest of an object, with the brace that closes it. -/
def stringifyProperties : List (List Char × JsonValue F) → List Char
  | [] => ['\x7d']
  | (key, value) :: properties =>
    ',' :: (quoted key ++ ':' :: (value.stringify ++ stringifyProperties properties))

end

/-! ### Reading -/

/-- The white space between tokens. -/
def isJsonSpace (c : Char) : Bool := c == ' ' || c == '\t' || c == '\n' || c == '\r'

/-- The text behind its leading white space. -/
def skipSpace (text : List Char) : List Char := text.dropWhile isJsonSpace

/-- The value of a hexadecimal digit. -/
def hexValue (c : Char) : Option ℕ :=
  if c.isDigit then some (c.toNat - '0'.toNat)
  else if 'a' ≤ c ∧ c ≤ 'f' then some (c.toNat - 'a'.toNat + 10)
  else if 'A' ≤ c ∧ c ≤ 'F' then some (c.toNat - 'A'.toNat + 10)
  else none

/-- A UTF-16 code unit, or a character that stood for itself. -/
inductive Unit16
  | char (c : Char)
  | unit (n : ℕ)

/-- The character behind a backslash, if it is not a `u`. -/
def unescaped : Char → Option Char
  | '"' => some '"'
  | '\\' => some '\\'
  | '/' => some '/'
  | 'b' => some '\x08'
  | 'f' => some '\x0C'
  | 'n' => some '\n'
  | 'r' => some '\r'
  | 't' => some '\t'
  | _ => none

/-- A string up to its closing quote, and what follows it. -/
def readUnits : List Char → Option (List Unit16 × List Char)
  | [] => none
  | '"' :: rest => some ([], rest)
  | '\\' :: 'u' :: a :: b :: c :: d :: rest => do
    let n := (← hexValue a) * 4096 + (← hexValue b) * 256 + (← hexValue c) * 16 + (← hexValue d)
    let (units, rest) ← readUnits rest
    some (.unit n :: units, rest)
  | '\\' :: e :: rest => do
    let c ← unescaped e
    let (units, rest) ← readUnits rest
    some (.char c :: units, rest)
  | c :: rest =>
    if c.toNat < 0x20 ∨ c = '\\' then none
    else do
      let (units, rest) ← readUnits rest
      some (.char c :: units, rest)

/-- The characters of code units; a lone surrogate is none. -/
def joinUnits : List Unit16 → Option (List Char)
  | [] => some []
  | .char c :: units => (joinUnits units).map (c :: ·)
  | .unit high :: .unit low :: units =>
    if 0xD800 ≤ high ∧ high < 0xDC00 then
      if 0xDC00 ≤ low ∧ low < 0xE000 then
        (joinUnits units).map
          (Char.ofNat (0x10000 + (high - 0xD800) * 0x400 + (low - 0xDC00)) :: ·)
      else none
    else if 0xDC00 ≤ high ∧ high < 0xE000 then none
    else (joinUnits (.unit low :: units)).map (Char.ofNat high :: ·)
  | .unit n :: units =>
    if 0xD800 ≤ n ∧ n < 0xE000 then none else (joinUnits units).map (Char.ofNat n :: ·)

/-- A string behind its opening quote. -/
def readString (text : List Char) : Option (List Char × List Char) := do
  let (units, rest) ← readUnits text
  some (← joinUnits units, rest)

/-- At least one digit, and what follows the digits. -/
def scanDigits (text : List Char) : Option (List Char × List Char) :=
  if text.takeWhile Char.isDigit = [] then none
  else some (text.takeWhile Char.isDigit, text.dropWhile Char.isDigit)

/-- A point with at least one digit, if there is a point. -/
def scanFraction : List Char → Option (List Char × List Char)
  | '.' :: text => (scanDigits text).map fun (digits, rest) => ('.' :: digits, rest)
  | text => some ([], text)

/-- An exponent, if there is one. -/
def scanPower : List Char → Option (List Char × List Char)
  | [] => some ([], [])
  | c :: text =>
    if c = 'e' ∨ c = 'E' then
      match text with
      | '+' :: text => (scanDigits text).map fun (digits, rest) => (c :: '+' :: digits, rest)
      | '-' :: text => (scanDigits text).map fun (digits, rest) => (c :: '-' :: digits, rest)
      | text => (scanDigits text).map fun (digits, rest) => (c :: digits, rest)
    else some ([], c :: text)

/-- The longest numeral without a sign; a zero in front of other digits is none. -/
def scanNumeral (text : List Char) : Option (List Char × List Char) := do
  let (whole, rest) ← scanDigits text
  if whole ≠ ['0'] ∧ whole.head? = some '0' then none
  else do
    let (fraction, rest) ← scanFraction rest
    let (power, rest) ← scanPower rest
    some (whole ++ (fraction ++ power), rest)

/-- A number behind its sign; a numeral that is too large is read as an infinity. -/
def readMagnitudeOf (negative : Bool) (text : List Char) : Option (JsNumber F × List Char) := do
  let (numeral, rest) ← scanNumeral text
  let value ← readDecimal numeral
  some ((Amount.ofRat value).withSign negative, rest)

/-- A number and what follows it. -/
def readJsonNumber : List Char → Option (JsNumber F × List Char)
  | '-' :: text => readMagnitudeOf true text
  | text => readMagnitudeOf false text

mutual

/-- A value and what follows it; `fuel` bounds the nesting. -/
def readValue : ℕ → List Char → Option (JsonValue F × List Char)
  | 0, _ => none
  | fuel + 1, text =>
    match skipSpace text with
    | 'n' :: 'u' :: 'l' :: 'l' :: rest => some (.null, rest)
    | 't' :: 'r' :: 'u' :: 'e' :: rest => some (.bool true, rest)
    | 'f' :: 'a' :: 'l' :: 's' :: 'e' :: rest => some (.bool false, rest)
    | '"' :: rest => (readString rest).map fun (text, rest) => (.str text, rest)
    | '[' :: rest =>
      match skipSpace rest with
      | ']' :: rest => some (.arr [], rest)
      | rest => (readItems fuel rest).map fun (items, rest) => (.arr items, rest)
    | '\x7b' :: rest =>
      match skipSpace rest with
      | '\x7d' :: rest => some (.obj [], rest)
      | rest => (readProperties fuel rest).map fun (properties, rest) => (.obj properties, rest)
    | text => (readJsonNumber text).map fun (x, rest) => (.num x, rest)

/-- At least one item, up to the closing bracket. -/
def readItems : ℕ → List Char → Option (List (JsonValue F) × List Char)
  | 0, _ => none
  | fuel + 1, text => do
    let (item, rest) ← readValue fuel text
    match skipSpace rest with
    | ']' :: rest => some ([item], rest)
    | ',' :: rest => (readItems fuel rest).map fun (items, rest) => (item :: items, rest)
    | _ => none

/-- At least one property, up to the closing brace. -/
def readProperties : ℕ → List Char → Option (List (List Char × JsonValue F) × List Char)
  | 0, _ => none
  | fuel + 1, text =>
    match skipSpace text with
    | '"' :: rest => do
      let (key, rest) ← readString rest
      match skipSpace rest with
      | ':' :: rest => do
        let (value, rest) ← readValue fuel rest
        match skipSpace rest with
        | '\x7d' :: rest => some ([(key, value)], rest)
        | ',' :: rest =>
          (readProperties fuel rest).map fun (properties, rest) =>
            ((key, value) :: properties, rest)
        | _ => none
      | _ => none
    | _ => none

end

/-- `JSON.parse`. -/
def parseJson (text : List Char) : Option (JsonValue F) :=
  match readValue (text.length + 1) text with
  | some (value, rest) => if skipSpace rest = [] then some value else none
  | none => none

/-! ### What printing keeps -/

/-- The number as which a printed number is read, unless it was printed as `null`. -/
def JsNumber.printed : JsNumber F → JsonValue F
  | .finite negative magnitude =>
    .num (.finite (negative && (F.shortest magnitude).significand ≠ 0) magnitude)
  | .nan | .infinite _ => .null

mutual

/-- The value as which a printed value is read. -/
def JsonValue.printed : JsonValue F → JsonValue F
  | .null => .null
  | .bool b => .bool b
  | .num x => x.printed
  | .str text => .str text
  | .arr items => .arr (printedItems items)
  | .obj properties => .obj (printedProperties properties)

/-- The items of an array as they are read. -/
def printedItems : List (JsonValue F) → List (JsonValue F)
  | [] => []
  | item :: items => item.printed :: printedItems items

/-- The properties of an object as they are read. -/
def printedProperties : List (List Char × JsonValue F) → List (List Char × JsonValue F)
  | [] => []
  | (key, value) :: properties => (key, value.printed) :: printedProperties properties

end

lemma JsNumber.stringify_printed (x : JsNumber F) : x.printed.stringify = x.jsonChars := by
  cases x with
  | finite negative magnitude =>
    by_cases hzero : (F.shortest magnitude).significand = 0 <;>
      simp [JsNumber.printed, JsonValue.stringify, JsNumber.jsonChars, JsNumber.toChars, hzero]
  | _ => simp [JsNumber.printed, JsonValue.stringify, JsNumber.jsonChars]

mutual

/-- What is read of a printed value is printed as the value is. -/
lemma stringify_printed : ∀ v : JsonValue F, v.printed.stringify = v.stringify
  | .null | .bool _ | .str _ => by rw [JsonValue.printed]
  | .num x => by rw [JsonValue.printed, x.stringify_printed, JsonValue.stringify]
  | .arr [] => by rw [JsonValue.printed, printedItems]
  | .arr (item :: items) => by
    rw [JsonValue.printed, printedItems, JsonValue.stringify, JsonValue.stringify,
      stringify_printed item, stringifyItems_printed items]
  | .obj [] => by rw [JsonValue.printed, printedProperties]
  | .obj ((key, value) :: properties) => by
    rw [JsonValue.printed, printedProperties, JsonValue.stringify, JsonValue.stringify,
      stringify_printed value, stringifyProperties_printed properties]

lemma stringifyItems_printed : ∀ items : List (JsonValue F),
    stringifyItems (printedItems items) = stringifyItems items
  | [] => by rw [printedItems]
  | item :: items => by
    rw [printedItems, stringifyItems, stringifyItems, stringify_printed item,
      stringifyItems_printed items]

lemma stringifyProperties_printed : ∀ properties : List (List Char × JsonValue F),
    stringifyProperties (printedProperties properties) = stringifyProperties properties
  | [] => by rw [printedProperties]
  | (key, value) :: properties => by
    rw [printedProperties, stringifyProperties, stringifyProperties, stringify_printed value,
      stringifyProperties_printed properties]

end

lemma JsNumber.printed_printed (x : JsNumber F) : x.printed.printed = x.printed := by
  cases x <;> simp [JsNumber.printed, JsonValue.printed]

mutual

/-- What was read is read again as it is. -/
lemma printed_printed : ∀ v : JsonValue F, v.printed.printed = v.printed
  | .null | .bool _ | .str _ => by rw [JsonValue.printed, JsonValue.printed]
  | .num x => by rw [JsonValue.printed, x.printed_printed]
  | .arr items => by rw [JsonValue.printed, JsonValue.printed, printedItems_printed items]
  | .obj properties => by
    rw [JsonValue.printed, JsonValue.printed, printedProperties_printed properties]

lemma printedItems_printed : ∀ items : List (JsonValue F),
    printedItems (printedItems items) = printedItems items
  | [] => by rw [printedItems, printedItems]
  | item :: items => by
    rw [printedItems, printedItems, printed_printed item, printedItems_printed items]

lemma printedProperties_printed : ∀ properties : List (List Char × JsonValue F),
    printedProperties (printedProperties properties) = printedProperties properties
  | [] => by rw [printedProperties, printedProperties]
  | (key, value) :: properties => by
    rw [printedProperties, printedProperties, printed_printed value,
      printedProperties_printed properties]

end

lemma printedItems_eq_map (items : List (JsonValue F)) :
    printedItems items = items.map JsonValue.printed := by
  induction items with
  | nil => rfl
  | cons item items ih => rw [printedItems, ih, List.map_cons]

lemma printedProperties_eq_map (properties : List (List Char × JsonValue F)) :
    printedProperties properties = properties.map fun p => (p.1, p.2.printed) := by
  induction properties with
  | nil => rfl
  | cons p properties ih =>
    obtain ⟨key, value⟩ := p
    rw [printedProperties, ih, List.map_cons]

/-! ### Strings -/

lemma hexValue_hexDigit : ∀ n < 16, hexValue (hexDigit n) = some n := by decide

lemma readUnits_plain {c : Char} (rest : List Char) (hquote : c ≠ '"') (hslash : c ≠ '\\')
    (hcontrol : ¬ c.toNat < 0x20) :
    readUnits (c :: rest) = (readUnits rest).map fun p => (.char c :: p.1, p.2) := by
  rw [readUnits.eq_def]
  split <;> simp_all [Option.bind_eq_bind, Option.map_eq_bind]

/-- A printed character is read back, whatever follows it. -/
lemma readUnits_escaped (c : Char) (rest : List Char) : ∃ u, readUnits (escaped c ++ rest) =
    (readUnits rest).map (fun p => (u :: p.1, p.2)) ∧
      (u = .char c ∨ u = .unit c.toNat ∧ c.toNat < 0x20) := by
  unfold escaped
  split_ifs with hquote hslash hb hf hn hr ht hcontrol
  all_goals first
    | exact ⟨.char c, by subst c; simp [readUnits, unescaped, Option.map_eq_bind],
        .inl rfl⟩
    | skip
  · refine ⟨.unit c.toNat, ?_, .inr ⟨rfl, hcontrol⟩⟩
    have hhigh := hexValue_hexDigit (c.toNat / 16) (by omega)
    have hlow := hexValue_hexDigit (c.toNat % 16) (by omega)
    have hzero : hexValue '0' = some 0 := rfl
    have hsum : 0 * 4096 + 0 * 256 + c.toNat / 16 * 16 + c.toNat % 16 = c.toNat := by omega
    simp only [List.cons_append, List.nil_append, readUnits, hhigh, hlow, hzero,
      Option.bind_eq_bind, Option.bind_some, hsum, Option.map_eq_bind, Function.comp_def]
  · exact ⟨.char c, readUnits_plain rest hquote hslash hcontrol, .inl rfl⟩

lemma joinUnits_unit {n : ℕ} (hn : n < 0xD800) (units : List Unit16) :
    joinUnits (.unit n :: units) = (joinUnits units).map (Char.ofNat n :: ·) := by
  have hhigh : ¬ (0xD800 ≤ n ∧ n < 0xDC00) := by omega
  have hlow : ¬ (0xDC00 ≤ n ∧ n < 0xE000) := by omega
  have hsurrogate : ¬ (0xD800 ≤ n ∧ n < 0xE000) := by omega
  cases units with
  | nil => simp only [joinUnits, hsurrogate, if_false]
  | cons u units =>
    cases u with
    | char c => simp only [joinUnits, hsurrogate, if_false]
    | unit low => rw [joinUnits, if_neg hhigh, if_neg hlow]

/-- A printed string is read back behind its opening quote. -/
lemma readString_quoted (text rest : List Char) :
    readString (text.flatMap escaped ++ '"' :: rest) = some (text, rest) := by
  have hunits : ∃ units, readUnits (text.flatMap escaped ++ '"' :: rest) = some (units, rest) ∧
      joinUnits units = some text := by
    induction text with
    | nil => exact ⟨[], by simp [readUnits], rfl⟩
    | cons c text ih =>
      obtain ⟨units, hread, hjoin⟩ := ih
      obtain ⟨u, hchar, hu⟩ := readUnits_escaped c (text.flatMap escaped ++ '"' :: rest)
      refine ⟨u :: units, by rw [List.flatMap_cons, List.append_assoc, hchar, hread]; rfl, ?_⟩
      rcases hu with rfl | ⟨rfl, hcontrol⟩
      · rw [joinUnits, hjoin]
        rfl
      · rw [joinUnits_unit (by omega), hjoin, Char.ofNat_toNat]
        rfl
  obtain ⟨units, hread, hjoin⟩ := hunits
  simp [readString, hread, hjoin]

/-! ### Numbers -/

/-- A text in front of which a numeral ends. -/
def EndsNumeral (rest : List Char) : Prop :=
  ∀ c ∈ rest.head?, c.isDigit = false ∧ c ≠ '.' ∧ c ≠ 'e' ∧ c ≠ 'E'

lemma scanDigits_append (digits : List Char) {rest : List Char}
    (hdigits : ∀ c ∈ digits, c.isDigit = true)
    (hne : digits ≠ []) (hrest : ∀ c ∈ rest.head?, c.isDigit = false) :
    scanDigits (digits ++ rest) = some (digits, rest) := by
  have hstop : rest.takeWhile Char.isDigit = [] ∧ rest.dropWhile Char.isDigit = rest := by
    cases rest with
    | nil => exact ⟨rfl, rfl⟩
    | cons c rest =>
      have hc := hrest c rfl
      simp [hc]
  rw [scanDigits, List.takeWhile_append_of_pos hdigits, List.dropWhile_append_of_pos hdigits,
    hstop.1, hstop.2, List.append_nil, if_neg hne]

lemma scanFraction_append {fraction rest : List Char}
    (hfraction : ∀ c ∈ fraction, c.isDigit = true) (hdigit : ∀ c ∈ rest.head?, c.isDigit = false)
    (hpoint : ∀ c ∈ rest.head?, c ≠ '.') :
    scanFraction (fractionChars fraction ++ rest) = some (fractionChars fraction, rest) := by
  unfold fractionChars
  split_ifs with hnil
  · rw [List.nil_append, scanFraction.eq_def]
    split
    · exact absurd rfl (hpoint '.' rfl)
    · rfl
  · rw [List.cons_append, scanFraction, scanDigits_append _ hfraction hnil hdigit]
    rfl

lemma scanPower_append (power : Option ℤ) {rest : List Char} (h : EndsNumeral rest) :
    scanPower (powerChars power ++ rest) = some (powerChars power, rest) := by
  cases power with
  | none =>
    cases rest with
    | nil => rfl
    | cons c rest =>
      obtain ⟨-, -, he, hE⟩ := h c rfl
      simp [powerChars, scanPower, he, hE]
  | some n =>
    have hdigits := scanDigits_append (Nat.toDigits 10 n.natAbs) (fun c hc =>
      Nat.isDigit_of_mem_toDigits (by decide) (by decide) hc) Nat.toDigits_ne_nil
      fun c hc => (h c hc).1
    by_cases hneg : n < 0 <;> simp [powerChars, scanPower, hneg, hdigits]

lemma scanNumeral_append (whole fraction : List Char) (power : Option ℤ) {rest : List Char}
    (hwhole : ∀ c ∈ whole, c.isDigit = true) (hne : whole ≠ [])
    (hzero : whole = ['0'] ∨ whole.head? ≠ some '0')
    (hfraction : ∀ c ∈ fraction, c.isDigit = true) (hrest : EndsNumeral rest) :
    scanNumeral (numeral whole fraction power ++ rest) =
      some (numeral whole fraction power, rest) := by
  have hpower : ∀ c ∈ (powerChars power ++ rest).head?, c.isDigit = false ∧ c ≠ '.' := by
    intro c hc
    cases power with
    | none => exact ⟨(hrest c hc).1, (hrest c hc).2.1⟩
    | some n =>
      cases hc
      exact ⟨rfl, by decide⟩
  have hbehind : ∀ c ∈ (fractionChars fraction ++ (powerChars power ++ rest)).head?,
      c.isDigit = false := by
    intro c hc
    unfold fractionChars at hc
    split_ifs at hc
    · exact (hpower c hc).1
    · cases hc
      rfl
  have hnot : ¬ (whole ≠ ['0'] ∧ whole.head? = some '0') := fun h =>
    hzero.elim h.1 fun hhead => hhead h.2
  have hdigits := scanDigits_append _ hwhole hne hbehind
  have hpoint := scanFraction_append hfraction (fun c hc => (hpower c hc).1)
    fun c hc => (hpower c hc).2
  have htext : numeral whole fraction power ++ rest =
      whole ++ (fractionChars fraction ++ (powerChars power ++ rest)) := by
    simp only [numeral, List.append_assoc]
  rw [htext]
  simp only [scanNumeral, hdigits, hpoint, scanPower_append power hrest, Option.bind_eq_bind,
    Option.bind_some, hnot, if_false]
  rfl

/-- A positive number is printed without a zero in front. -/
lemma head_toDigits {n : ℕ} (hn : n ≠ 0) : (Nat.toDigits 10 n).head? ≠ some '0' := by
  induction n using Nat.strongRecOn with
  | ind n ih =>
    by_cases hsmall : n < 10
    · rw [Nat.toDigits_of_lt_base hsmall]
      have hdigit : ∀ m < 10, m ≠ 0 → [Nat.digitChar m].head? ≠ some '0' := by decide
      exact hdigit n hsmall hn
    · rw [Nat.toDigits_of_base_le (by decide) (by omega), List.head?_append_of_ne_nil _
        Nat.toDigits_ne_nil]
      exact ih (n / 10) (by omega) (by omega)

/-- Every text of a decimal is a numeral of the grammar. -/
lemma scanNumeral_toChars (d : Decimal) {rest : List Char} (hrest : EndsNumeral rest) :
    scanNumeral (d.toChars ++ rest) = some (d.toChars, rest) := by
  have hdigits : ∀ c ∈ Nat.toDigits 10 d.significand, c.isDigit = true :=
    fun c hc => isDigit_of_mem_digits hc
  have hne := Nat.toDigits_ne_nil (n := d.significand) (b := 10)
  have hlength : 0 < (Nat.toDigits 10 d.significand).length := List.length_pos_iff.2 hne
  simp only [Decimal.toChars]
  split_ifs with hzero hinteger hpoint hsmall
  · exact scanNumeral_append ['0'] [] none (by simp) (by simp)
      (.inl rfl) (by simp) hrest
  · refine scanNumeral_append _ _ none ?_ (by simp [hne]) (.inr ?_) (by simp) hrest
    · intro c hc
      rcases List.mem_append.1 hc with hc | hc
      · exact hdigits c hc
      · exact isDigit_of_mem_replicate hc
    · rw [List.head?_append_of_ne_nil _ hne]
      exact head_toDigits hzero
  · refine scanNumeral_append _ _ none (fun c hc => hdigits c (List.mem_of_mem_take hc)) ?_
      (.inr ?_) (fun c hc => hdigits c (List.mem_of_mem_drop hc)) hrest
    · rw [ne_eq, List.take_eq_nil_iff]
      rintro (hnone | hnil)
      · omega
      · exact hne hnil
    · rw [List.head?_take, if_neg (by omega)]
      exact head_toDigits hzero
  · refine scanNumeral_append ['0'] _ none (by simp) (by simp) (.inl rfl) ?_ hrest
    intro c hc
    rcases List.mem_append.1 hc with hc | hc
    · exact isDigit_of_mem_replicate hc
    · exact hdigits c hc
  · refine scanNumeral_append _ _ _ (fun c hc => hdigits c (List.mem_of_mem_take hc))
      (by simp [hne]) (.inr ?_) (fun c hc => hdigits c (List.mem_of_mem_drop hc)) hrest
    rw [List.head?_take, if_neg (by decide)]
    exact head_toDigits hzero

/-- A printed number is read back, but for the sign of a zero. -/
lemma readJsonNumber_jsonChars (negative : Bool) (magnitude : F.Magnitude) {rest : List Char}
    (hrest : EndsNumeral rest) :
    readJsonNumber ((JsNumber.finite negative magnitude).jsonChars ++ rest)
      = some (.finite (negative && (F.shortest magnitude).significand ≠ 0) magnitude, rest) := by
  have hmagnitude : ∀ sign, readMagnitudeOf sign ((F.shortest magnitude).toChars ++ rest) =
      some (.finite sign magnitude, rest) := by
    intro sign
    simp only [readMagnitudeOf, scanNumeral_toChars _ hrest, readDecimal_toChars, Amount.ofRat,
      F.nearest_shortest, Option.bind_eq_bind, Option.bind_some, Amount.withSign]
  by_cases hsign : negative = true ∧ (F.shortest magnitude).significand ≠ 0
  · have hmagnitude := hmagnitude true
    simp only [JsNumber.jsonChars, JsNumber.toChars, hsign, ne_eq, not_false_eq_true, and_self,
      if_true, decide_true, Bool.and_self]
    exact hmagnitude
  · have hmagnitude := hmagnitude false
    have hpositive : (negative && decide ((F.shortest magnitude).significand ≠ 0)) = false := by
      simpa using hsign
    obtain ⟨c, text, heq, hdigit, -⟩ := toChars_eq (F.shortest magnitude)
    have hminus : c ≠ '-' := by
      rintro rfl
      cases hdigit
    simp only [JsNumber.jsonChars, JsNumber.toChars, hsign, if_false, List.nil_append, hpositive]
    rw [heq, List.cons_append] at hmagnitude ⊢
    rw [readJsonNumber.eq_def]
    split
    · rename_i text' hcons
      cases hcons
      exact absurd rfl hminus
    · exact hmagnitude

/-! ### Values -/

lemma skipSpace_cons {c : Char} (hc : isJsonSpace c = false) (text : List Char) :
    skipSpace (c :: text) = c :: text := by
  simp [skipSpace, hc]

/-- The text of a finite number starts with a digit or a sign. -/
lemma JsNumber.jsonChars_head (negative : Bool) (magnitude : F.Magnitude) :
    ∃ c text, (JsNumber.finite negative magnitude).jsonChars = c :: text ∧
      (c.isDigit = true ∨ c = '-') := by
  simp only [JsNumber.jsonChars, JsNumber.toChars]
  split_ifs
  · exact ⟨'-', _, rfl, .inr rfl⟩
  · obtain ⟨c, text, heq, hdigit, -⟩ := toChars_eq (F.shortest magnitude)
    exact ⟨c, text, heq, .inl hdigit⟩

lemma not_space_of_number {c : Char} (hc : c.isDigit = true ∨ c = '-') :
    isJsonSpace c = false ∧ c ≠ ']' := by
  rcases hc with hc | rfl
  · constructor
    · simp only [isJsonSpace, Bool.or_eq_false_iff, beq_eq_false_iff_ne]
      refine ⟨⟨⟨?_, ?_⟩, ?_⟩, ?_⟩ <;>
      · rintro rfl
        cases hc
    · rintro rfl
      cases hc
  · decide

lemma stringify_head (v : JsonValue F) :
    ∃ c text, v.stringify = c :: text ∧ isJsonSpace c = false ∧ c ≠ ']' := by
  cases v with
  | null => exact ⟨_, _, by rw [JsonValue.stringify], by decide, by decide⟩
  | bool b => cases b <;> exact ⟨_, _, by rw [JsonValue.stringify], by decide, by decide⟩
  | num x =>
    cases x with
    | finite negative magnitude =>
      obtain ⟨c, text, heq, hc⟩ := JsNumber.jsonChars_head negative magnitude
      exact ⟨c, text, by rw [JsonValue.stringify, heq], not_space_of_number hc⟩
    | _ => exact ⟨_, _, by rw [JsonValue.stringify, JsNumber.jsonChars], by decide, by decide⟩
  | str text => exact ⟨_, _, by rw [JsonValue.stringify, quoted], by decide, by decide⟩
  | arr items =>
    cases items <;> exact ⟨_, _, by rw [JsonValue.stringify], by decide, by decide⟩
  | obj properties =>
    cases properties <;> exact ⟨_, _, by rw [JsonValue.stringify], by decide, by decide⟩

/-- In front of a digit or a sign there is a number. -/
lemma readValue_number {c : Char} (hc : c.isDigit = true ∨ c = '-') (fuel : ℕ)
    (text : List Char) : readValue (F := F) (fuel + 1) (c :: text) =
      (readJsonNumber (c :: text)).map fun p => (.num p.1, p.2) := by
  rw [readValue, skipSpace_cons (not_space_of_number hc).1]
  split
  all_goals first | rfl | skip
  all_goals
    rename_i hcons
    cases hcons
    exact absurd hc (by decide)

lemma endsNumeral_cons {c : Char} (hc : c = ',' ∨ c = ']' ∨ c = '\x7d') (rest : List Char) :
    EndsNumeral (c :: rest) := by
  intro e he
  cases he
  rcases hc with rfl | rfl | rfl <;> decide

mutual

/-- What printing keeps of a value is read back, whatever follows its text that does not go on
with its numeral. -/
lemma readValue_stringify : ∀ (v : JsonValue F) (fuel : ℕ) (rest : List Char),
    v.stringify.length ≤ fuel → EndsNumeral rest →
      readValue fuel (v.stringify ++ rest) = some (v.printed, rest)
  | v, 0, rest, hfuel, _ => by
    obtain ⟨c, text, heq, -⟩ := stringify_head v
    rw [heq] at hfuel
    cases hfuel
  | .null, fuel + 1, rest, _, _ => by rw [JsonValue.stringify]; rfl
  | .bool true, fuel + 1, rest, _, _ => by rw [JsonValue.stringify]; rfl
  | .bool false, fuel + 1, rest, _, _ => by rw [JsonValue.stringify]; rfl
  | .num .nan, fuel + 1, rest, _, _ => by rw [JsonValue.stringify]; rfl
  | .num (.infinite _), fuel + 1, rest, _, _ => by rw [JsonValue.stringify]; rfl
  | .num (.finite negative magnitude), fuel + 1, rest, _, hrest => by
    obtain ⟨c, text, heq, hc⟩ := JsNumber.jsonChars_head negative magnitude
    have hread := readJsonNumber_jsonChars negative magnitude hrest
    rw [JsonValue.stringify]
    rw [heq, List.cons_append] at hread ⊢
    rw [readValue_number hc, hread]
    rfl
  | .str text, fuel + 1, rest, _, _ => by
    have hread := readString_quoted text rest
    rw [JsonValue.stringify, quoted, readValue, List.cons_append,
      skipSpace_cons (by decide), List.append_assoc]
    simp only [List.singleton_append, hread]
    rfl
  | .arr [], fuel + 1, rest, _, _ => by rw [JsonValue.stringify]; rfl
  | .arr (item :: items), fuel + 1, rest, hfuel, _ => by
    rw [JsonValue.stringify, List.length_cons] at hfuel
    have hread := readItems_stringify item items fuel rest (by omega)
    obtain ⟨c, text, heq, hspace, hclose⟩ := stringify_head item
    rw [JsonValue.stringify, readValue, List.cons_append, skipSpace_cons (by decide)]
    rw [heq, List.cons_append, List.cons_append] at hread ⊢
    simp only [skipSpace_cons hspace]
    split
    · rename_i hcons
      cases hcons
      exact absurd rfl hclose
    · rw [hread]
      rfl
  | .obj [], fuel + 1, rest, _, _ => by rw [JsonValue.stringify]; rfl
  | .obj ((key, value) :: properties), fuel + 1, rest, hfuel, _ => by
    rw [JsonValue.stringify, List.length_cons] at hfuel
    have hread := readProperties_stringify key value properties fuel rest (by omega)
    rw [JsonValue.stringify, readValue, List.cons_append, skipSpace_cons (by decide)]
    rw [quoted, List.cons_append, List.cons_append] at hread ⊢
    simp only [skipSpace_cons (c := '"') (by decide)]
    change (readProperties fuel _).map _ = _
    rw [hread]
    rfl

lemma readItems_stringify : ∀ (item : JsonValue F) (items : List (JsonValue F)) (fuel : ℕ)
    (rest : List Char), (item.stringify ++ stringifyItems items).length ≤ fuel →
      readItems fuel (item.stringify ++ stringifyItems items ++ rest)
        = some (printedItems (item :: items), rest)
  | item, items, 0, rest, hfuel => by
    obtain ⟨c, text, heq, -⟩ := stringify_head item
    rw [heq] at hfuel
    cases hfuel
  | item, [], fuel + 1, rest, hfuel => by
    rw [stringifyItems] at hfuel ⊢
    have hitem := readValue_stringify item fuel (']' :: rest) (by simp at hfuel; omega)
      (endsNumeral_cons (.inr (.inl rfl)) rest)
    rw [List.append_assoc, List.singleton_append, readItems, hitem]
    simp only [Option.bind_eq_bind, Option.bind_some, skipSpace_cons (c := ']') (by decide)]
    rfl
  | item, item' :: items, fuel + 1, rest, hfuel => by
    rw [stringifyItems] at hfuel ⊢
    have hitem := readValue_stringify item fuel
      (',' :: (item'.stringify ++ stringifyItems items ++ rest)) (by simp at hfuel; omega)
      (endsNumeral_cons (.inl rfl) _)
    have hitems := readItems_stringify item' items fuel rest (by simp at hfuel ⊢; omega)
    rw [List.append_assoc, List.cons_append, readItems, hitem]
    simp only [Option.bind_eq_bind, Option.bind_some, skipSpace_cons (c := ',') (by decide), hitems]
    rfl

lemma readProperties_stringify : ∀ (key : List Char) (value : JsonValue F)
    (properties : List (List Char × JsonValue F)) (fuel : ℕ) (rest : List Char),
    (quoted key ++ ':' :: (value.stringify ++ stringifyProperties properties)).length ≤ fuel →
      readProperties fuel
          (quoted key ++ ':' :: (value.stringify ++ stringifyProperties properties) ++ rest) =
        some (printedProperties ((key, value) :: properties), rest)
  | key, value, properties, 0, rest, hfuel => by
    simp [quoted] at hfuel
  | key, value, [], fuel + 1, rest, hfuel => by
    rw [stringifyProperties] at hfuel ⊢
    have hvalue := readValue_stringify value fuel ('\x7d' :: rest) (by simp at hfuel; omega)
      (endsNumeral_cons (.inr (.inr rfl)) rest)
    have hkey := readString_quoted key (':' :: (value.stringify ++ '\x7d' :: rest))
    have htext : quoted key ++ ':' :: (value.stringify ++ ['\x7d']) ++ rest =
        '"' :: (key.flatMap escaped ++ '"' :: ':' :: (value.stringify ++ '\x7d' :: rest)) := by
      simp [quoted]
    rw [htext, readProperties, skipSpace_cons (by decide)]
    simp only [hkey, Option.bind_eq_bind, Option.bind_some, skipSpace_cons (c := ':') (by decide),
      hvalue, skipSpace_cons (c := '\x7d') (by decide)]
    rfl
  | key, value, (key', value') :: properties, fuel + 1, rest, hfuel => by
    rw [stringifyProperties] at hfuel ⊢
    have hproperties := readProperties_stringify key' value' properties fuel rest
      (by simp at hfuel ⊢; omega)
    have hvalue := readValue_stringify value fuel
      (',' :: (quoted key' ++ ':' :: (value'.stringify ++ stringifyProperties properties) ++ rest))
      (by simp at hfuel; omega) (endsNumeral_cons (.inl rfl) _)
    have hkey := readString_quoted key (':' :: (value.stringify ++ ',' ::
      (quoted key' ++ ':' :: (value'.stringify ++ stringifyProperties properties) ++ rest)))
    have htext : quoted key ++ ':' :: (value.stringify ++ ',' ::
        (quoted key' ++ ':' :: (value'.stringify ++ stringifyProperties properties))) ++ rest =
          '"' :: (key.flatMap escaped ++ '"' :: ':' :: (value.stringify ++ ',' ::
            (quoted key' ++ ':' :: (value'.stringify ++ stringifyProperties properties)
              ++ rest))) := by
      simp [quoted]
    rw [htext, readProperties, skipSpace_cons (by decide)]
    simp only [hkey, Option.bind_eq_bind, Option.bind_some, skipSpace_cons (c := ':') (by decide),
      hvalue, skipSpace_cons (c := ',') (by decide), hproperties]
    rfl

end

/-- `JSON.parse` inverts `JSON.stringify`, but for the numbers that JSON does not have. -/
theorem parseJson_stringify (v : JsonValue F) : parseJson v.stringify = some v.printed := by
  have hread := readValue_stringify v (v.stringify.length + 1) [] (by omega) (by simp [EndsNumeral])
  rw [List.append_nil] at hread
  rw [parseJson, hread]
  rfl

/-! ### Control characters -/

/-- A text in one line. -/
def Printable (text : List Char) : Prop := ∀ c ∈ text, 0x20 ≤ c.toNat

instance decidablePrintable (text : List Char) : Decidable (Printable text) :=
  List.decidableBAll (fun c : Char => 0x20 ≤ c.toNat) text

lemma Printable.append {text text' : List Char} (h : Printable text) (h' : Printable text') :
    Printable (text ++ text') := by
  intro c hc
  exact (List.mem_append.1 hc).elim (h c) (h' c)

lemma Printable.cons {c : Char} {text : List Char} (hc : 0x20 ≤ c.toNat) (h : Printable text) :
    Printable (c :: text) :=
  List.forall_mem_cons.2 ⟨hc, h⟩

lemma printable_nil : Printable [] := by simp [Printable]

lemma printable_escaped (c : Char) : Printable (escaped c) := by
  have hhex : ∀ n < 16, 0x20 ≤ (hexDigit n).toNat := by decide
  unfold escaped
  split_ifs with hquote hslash hb hf hn hr ht hcontrol
  · decide
  · decide
  · decide
  · decide
  · decide
  · decide
  · decide
  · simp only [Printable, List.forall_mem_cons]
    exact ⟨by decide, by decide, by decide, by decide, hhex _ (by omega), hhex _ (by omega),
      by simp⟩
  · exact .cons (by omega) printable_nil

lemma printable_quoted (text : List Char) : Printable (quoted text) := by
  refine Printable.cons (by decide) (Printable.append ?_ (Printable.cons (by decide) printable_nil))
  intro c hc
  obtain ⟨e, -, he⟩ := List.mem_flatMap.1 hc
  exact printable_escaped e c he

lemma isNumeralChar_printable {c : Char} (h : isNumeralChar c = true) : 0x20 ≤ c.toNat := by
  simp only [isNumeralChar, Bool.or_eq_true, decide_eq_true_eq, List.mem_cons] at h
  rcases h with h | rfl | rfl | rfl | rfl | h
  · have hzero : 0x20 ≤ '0'.toNat := by decide
    exact hzero.trans (Char.isDigit_iff_toNat.1 h).1
  · decide
  · decide
  · decide
  · decide
  · cases h

lemma JsNumber.printable (x : JsNumber F) : Printable x.jsonChars := by
  cases x with
  | finite negative magnitude =>
    obtain ⟨c, text, heq, hc, htext⟩ := toChars_eq (F.shortest magnitude)
    have hmagnitude : Printable (F.shortest magnitude).toChars := by
      rw [heq]
      exact Printable.cons (isNumeralChar_printable (by simp [isNumeralChar, hc]))
        fun e he => isNumeralChar_printable (htext e he)
    simp only [JsNumber.jsonChars, JsNumber.toChars]
    split_ifs
    · exact Printable.cons (by decide) hmagnitude
    · exact hmagnitude
  | _ => exact (by decide : Printable ['n', 'u', 'l', 'l'])

mutual

/-- A printed value has no control characters, and so no line breaks. -/
theorem printable_stringify : ∀ v : JsonValue F, Printable v.stringify
  | .null => by rw [JsonValue.stringify]; decide
  | .bool true => by rw [JsonValue.stringify]; decide
  | .bool false => by rw [JsonValue.stringify]; decide
  | .num x => by rw [JsonValue.stringify]; exact x.printable
  | .str text => by rw [JsonValue.stringify]; exact printable_quoted text
  | .arr [] => by rw [JsonValue.stringify]; decide
  | .arr (item :: items) => by
    rw [JsonValue.stringify]
    exact .cons (by decide) (.append (printable_stringify item) (printable_items items))
  | .obj [] => by rw [JsonValue.stringify]; decide
  | .obj ((key, value) :: properties) => by
    rw [JsonValue.stringify]
    exact .cons (by decide) (.append (printable_quoted key) (.cons (by decide)
      (.append (printable_stringify value) (printable_properties properties))))

lemma printable_items : ∀ items : List (JsonValue F), Printable (stringifyItems items)
  | [] => by rw [stringifyItems]; decide
  | item :: items => by
    rw [stringifyItems]
    exact .cons (by decide) (.append (printable_stringify item) (printable_items items))

lemma printable_properties : ∀ properties : List (List Char × JsonValue F),
    Printable (stringifyProperties properties)
  | [] => by rw [stringifyProperties]; decide
  | (key, value) :: properties => by
    rw [stringifyProperties]
    exact .cons (by decide) (.append (printable_quoted key) (.cons (by decide)
      (.append (printable_stringify value) (printable_properties properties))))

end

/-! ### Values of a program -/

/-- A string as a JSON value. -/
def jsonString (s : String) : JsonValue F := .str s.toList

/-- A count as a JSON value; what is not finite is printed as `null`. -/
def jsonCount (n : ℕ) : JsonValue F :=
  match F.nearest n with
  | some magnitude => .num (.finite false magnitude)
  | none => .null

/-- A property of an object; of two with one name the last counts. -/
def property (name : List Char) : JsonValue F → Option (JsonValue F)
  | .obj properties => (properties.reverse.find? (·.1 = name)).map (·.2)
  | _ => none

@[simp] lemma printed_jsonString (s : String) :
    (jsonString s : JsonValue F).printed = jsonString s := by
  rw [jsonString, JsonValue.printed]

@[simp] lemma printed_jsonCount (n : ℕ) : (jsonCount n : JsonValue F).printed = jsonCount n := by
  unfold jsonCount
  split <;> simp [JsonValue.printed, JsNumber.printed]

/-- Printing keeps the properties of an object. -/
lemma property_printed (name : List Char) (v : JsonValue F) :
    property name v.printed = (property name v).map JsonValue.printed := by
  cases v with
  | obj properties =>
    rw [JsonValue.printed, printedProperties_eq_map, property, property, ← List.map_reverse,
      List.find?_map, Option.map_map, Option.map_map]
    rfl
  | num x => cases x <;> rfl
  | _ => rfl

end InveniOps.Lib
