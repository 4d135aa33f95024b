import Swimlane.Json.Value

/-!
# Reading JSON text

A reader for the values that results consist of. The text is first cut into tokens, character by
character; what stands between tokens is passed over, so one reader reads all layouts. Then the
tokens are put together, with the arrays and objects that are not yet complete on a stack.

## Main definitions

* `Json.scan`: the tokens of a text;
* `Json.value?`: the value that tokens write;
* `Json.read?`: the value that a text writes.

## Main statements

* `Json.scan_chars`: the text of a value has the tokens of the value, in every layout;
* `Json.value?_tokens`: the tokens of a value are put together to it;
* `Json.read?_print`: so the text of a value is read back.
-/

namespace Swimlane.Json

/-- The tokens of JSON text. -/
inductive Token where
  | number (n : Nat)
  | string (s : String)
  /-- A bracket, a comma or a colon. -/
  | mark (c : Char)
  deriving Repr, DecidableEq

/-! ## From characters to tokens -/

/-- What the next character belongs to, with what has been read of it. -/
inductive Mode where
  | between
  | number (n : Nat)
  | text (cs : List Char)
  /-- Behind the backslash of an escape. -/
  | escape (cs : List Char)
  /-- Inside an escape of four hexadecimal digits: their value, and how many are still to come. -/
  | code (cs : List Char) (n remaining : Nat)
  deriving Repr, DecidableEq

/-- The character that an escape of one letter stands for. -/
def unescape? : Char → Option Char
  | '"' => some '"'
  | '\\' => some '\\'
  | 'b' => some '\x08'
  | 't' => some '\t'
  | 'n' => some '\n'
  | 'f' => some '\x0c'
  | 'r' => some '\r'
  | _ => none

/-- The value of a hexadecimal digit. -/
def hexValue? (c : Char) : Option Nat :=
  if c.isDigit then some (c.toNat - '0'.toNat)
  else if 'a' ≤ c && c ≤ 'f' then some (c.toNat - 'a'.toNat + 10)
  else none

namespace Mode

/-- Takes a character between tokens. -/
def start (c : Char) : Option (Mode × List Token) :=
  if c = '"' then some (.text [], [])
  else if c.isDigit then some (.number (c.toNat - '0'.toNat), [])
  else if c = ' ' || c = '\n' then some (.between, [])
  else if c ∈ ['[', ']', '\x7b', '\x7d', ',', ':'] then some (.between, [.mark c])
  else none

/-- Takes a character: what the next one belongs to, and the tokens that end here. -/
def step : Mode → Char → Option (Mode × List Token)
  | .between, c => start c
  | .number n, c =>
    if c.isDigit then some (.number (10 * n + (c.toNat - '0'.toNat)), [])
    else (start c).map fun (mode, tokens) => (mode, .number n :: tokens)
  | .text cs, c =>
    if c = '"' then some (.between, [.string (String.ofList cs)])
    else if c = '\\' then some (.escape cs, [])
    else some (.text (cs ++ [c]), [])
  | .escape cs, c =>
    if c = 'u' then some (.code cs 0 4, [])
    else (unescape? c).map fun c => (.text (cs ++ [c]), [])
  | .code cs n remaining, c =>
    (hexValue? c).map fun digit =>
      if remaining ≤ 1 then (.text (cs ++ [Char.ofNat (16 * n + digit)]), [])
      else (.code cs (16 * n + digit) (remaining - 1), [])

/-- The tokens that end with the text. -/
def finish : Mode → Option (List Token)
  | .between => some []
  | .number n => some [.number n]
  | _ => none

end Mode

/-- The tokens of a text. -/
def scan (mode : Mode) : List Char → Option (List Token)
  | [] => mode.finish
  | c :: cs => (mode.step c).bind fun (mode, tokens) => (scan mode cs).map (tokens ++ ·)

theorem scan_cons (mode : Mode) (c : Char) (cs : List Char) :
    scan mode (c :: cs) =
      (mode.step c).bind fun (mode, tokens) => (scan mode cs).map (tokens ++ ·) := rfl

/-- A character that ends no token. -/
theorem scan_of_step {mode mode' : Mode} {c : Char} (h : mode.step c = some (mode', []))
    (cs : List Char) : scan mode (c :: cs) = scan mode' cs := by
  simp [scan_cons, h]

/-- A character that ends a token. -/
theorem scan_of_step_token {mode mode' : Mode} {c : Char} {token : Token}
    (h : mode.step c = some (mode', [token])) (cs : List Char) :
    scan mode (c :: cs) = (scan mode' cs).map (token :: ·) := by
  simp [scan_cons, h]

/-! ### Strings -/

theorem hexValue?_hexDigit {n : Nat} (h : n < 16) : hexValue? (hexDigit n) = some n := by
  have all : ∀ n < 16, hexValue? (hexDigit n) = some n := by decide
  exact all n h

/-- Four hexadecimal digits stand for a character. -/
theorem scan_code {a b c d : Char} {i j k m : Nat} (ha : hexValue? a = some i)
    (hb : hexValue? b = some j) (hc : hexValue? c = some k) (hd : hexValue? d = some m)
    (acc cs : List Char) :
    scan (.code acc 0 4) (a :: b :: c :: d :: cs) =
      scan (.text (acc ++ [Char.ofNat (16 * (16 * (16 * i + j) + k) + m)])) cs := by
  have goesOn {c : Char} {digit : Nat} (h : hexValue? c = some digit) (n remaining : Nat) :
      (Mode.code acc n (remaining + 2)).step c =
        some (.code acc (16 * n + digit) (remaining + 1), []) := by
    simp [Mode.step, h]
  have ends {c : Char} {digit : Nat} (h : hexValue? c = some digit) (n : Nat) :
      (Mode.code acc n 1).step c = some (.text (acc ++ [Char.ofNat (16 * n + digit)]), []) := by
    simp [Mode.step, h]
  rw [scan_of_step (goesOn ha 0 2), scan_of_step (goesOn hb _ 1), scan_of_step (goesOn hc _ 0),
    scan_of_step (ends hd _), Nat.mul_zero, Nat.zero_add]

/-- An escape is a letter behind a backslash, the code of a control character, or the character
itself. -/
theorem escape_cases (c : Char) :
    (∃ letter, letter ≠ 'u' ∧ unescape? letter = some c ∧ escape c = ['\\', letter]) ∨
    (c.toNat < 0x20 ∧
      escape c = ['\\', 'u', '0', '0', hexDigit (c.toNat / 16), hexDigit (c.toNat % 16)]) ∨
    (c ≠ '"' ∧ c ≠ '\\' ∧ escape c = [c]) := by
  unfold escape
  split
  · next h => exact .inl ⟨'"', by decide, by rw [h]; rfl, rfl⟩
  split
  · next h => exact .inl ⟨'\\', by decide, by rw [h]; rfl, rfl⟩
  split
  · next h => exact .inl ⟨'b', by decide, by rw [h]; rfl, rfl⟩
  split
  · next h => exact .inl ⟨'t', by decide, by rw [h]; rfl, rfl⟩
  split
  · next h => exact .inl ⟨'n', by decide, by rw [h]; rfl, rfl⟩
  split
  · next h => exact .inl ⟨'f', by decide, by rw [h]; rfl, rfl⟩
  split
  · next h => exact .inl ⟨'r', by decide, by rw [h]; rfl, rfl⟩
  split
  · next control => exact .inr (.inl ⟨control, rfl⟩)
  · next quote slash _ _ _ _ _ _ => exact .inr (.inr ⟨quote, slash, rfl⟩)

/-- An escaped character is read as the character. -/
theorem scan_escape (acc : List Char) (c : Char) (cs : List Char) :
    scan (.text acc) (escape c ++ cs) = scan (.text (acc ++ [c])) cs := by
  have slash : (Mode.text acc).step '\\' = some (.escape acc, []) := rfl
  rcases escape_cases c with ⟨letter, hu, plain, same⟩ | ⟨control, same⟩ | ⟨quote, other, same⟩
  · have stands : (Mode.escape acc).step letter = some (.text (acc ++ [c]), []) := by
      simp [Mode.step, hu, plain]
    rw [same, List.cons_append, scan_of_step slash, List.singleton_append, scan_of_step stands]
  · have high := hexValue?_hexDigit (n := c.toNat / 16) (by omega)
    have low := hexValue?_hexDigit (n := c.toNat % 16) (by omega)
    have whole : 16 * (c.toNat / 16) + c.toNat % 16 = c.toNat := Nat.div_add_mod ..
    have zero : hexValue? '0' = some 0 := rfl
    have digits := scan_code zero zero high low acc cs
    rw [Nat.mul_zero, Nat.zero_add, whole, Char.ofNat_toNat] at digits
    have code : (Mode.escape acc).step 'u' = some (.code acc 0 4, []) := rfl
    rw [same, ← digits, List.cons_append, scan_of_step slash, List.cons_append, scan_of_step code]
    rfl
  · rw [same, List.singleton_append]
    exact scan_of_step (by simp [Mode.step, quote, other]) cs

theorem scan_text (acc text cs : List Char) :
    scan (.text acc) (text.flatMap escape ++ '"' :: cs) =
      (scan .between cs).map (.string (String.ofList (acc ++ text)) :: ·) := by
  induction text generalizing acc with
  | nil =>
    have closes : (Mode.text acc).step '"' = some (.between, [.string (String.ofList acc)]) := rfl
    simpa using scan_of_step_token closes cs
  | cons c text ih =>
    rw [List.flatMap_cons, List.append_assoc, scan_escape, ih, List.append_assoc,
      List.singleton_append]

/-- A string in its quotes is a token. -/
theorem scan_quote (s : String) (cs : List Char) :
    scan .between (quote s ++ cs) = (scan .between cs).map (.string s :: ·) := by
  have opens : Mode.between.step '"' = some (.text [], []) := rfl
  rw [quote, List.append_assoc, List.cons_append, scan_of_step opens]
  simpa using scan_text [] s.toList cs

/-! ### Numbers -/

/-- The text behind a number does not go on with digits. -/
def EndsNumber (cs : List Char) : Prop := ∀ c ∈ cs.head?, c.isDigit = false

theorem scan_digits {digits : List Char} (h : ∀ c ∈ digits, c.isDigit = true) (n : Nat)
    (cs : List Char) :
    scan (.number n) (digits ++ cs) = scan (.number (Nat.ofDigitChars 10 digits n)) cs := by
  induction digits generalizing n with
  | nil => rfl
  | cons c digits ih =>
    have digit : c.isDigit = true := h c (by simp)
    have goesOn : (Mode.number n).step c = some (.number (10 * n + (c.toNat - '0'.toNat)), []) :=
      if_pos digit
    rw [List.cons_append, scan_of_step goesOn, ih fun c hc => h c (by simp [hc]),
      Nat.ofDigitChars_cons]

theorem scan_number_end (n : Nat) {cs : List Char} (h : EndsNumber cs) :
    scan (.number n) cs = (scan .between cs).map (.number n :: ·) := by
  cases cs with
  | nil => rfl
  | cons c cs =>
    have other : c.isDigit = false := h c rfl
    simp only [scan_cons, Mode.step, other]
    cases Mode.start c <;> simp [Function.comp_def]

theorem step_digit {c : Char} (h : c.isDigit = true) :
    Mode.between.step c = some (.number (c.toNat - '0'.toNat), []) := by
  have quote : c ≠ '"' := by
    rintro rfl
    cases h
  simp [Mode.step, Mode.start, quote, h]

/-- A number is a token, unless it goes on. -/
theorem scan_toString (n : Nat) {cs : List Char} (h : EndsNumber cs) :
    scan .between ((toString n).toList ++ cs) = (scan .between cs).map (.number n :: ·) := by
  rw [Nat.toString_eq_repr, Nat.toList_repr]
  have value : Nat.ofDigitChars 10 (Nat.toDigits 10 n) 0 = n :=
    Nat.ofDigitChars_toDigits (by decide) (by decide)
  have digits (c : Char) (hc : c ∈ Nat.toDigits 10 n) : c.isDigit = true :=
    Nat.isDigit_of_mem_toDigits (by decide) (by decide) hc
  cases hd : Nat.toDigits 10 n with
  | nil => exact absurd hd Nat.toDigits_ne_nil
  | cons c ds =>
    rw [hd] at value digits
    rw [Nat.ofDigitChars_cons, Nat.mul_zero, Nat.zero_add] at value
    rw [List.cons_append, scan_of_step (step_digit (digits c (by simp))),
      scan_digits (fun c hc => digits c (by simp [hc])), value, scan_number_end n h]

/-! ### Layout -/

theorem scan_newline (layout : Layout) (depth : Nat) (cs : List Char) :
    scan .between (layout.newline depth ++ cs) = scan .between cs := by
  cases layout with
  | compact => rfl
  | pretty =>
    have blanks (n : Nat) : scan .between (List.replicate n ' ' ++ cs) = scan .between cs := by
      induction n with
      | zero => rfl
      | succ n ih => rw [List.replicate_succ, List.cons_append, scan_of_step rfl, ih]
    rw [Layout.newline, List.cons_append, scan_of_step rfl, blanks]

theorem scan_colon (layout : Layout) (cs : List Char) :
    scan .between (layout.colon ++ cs) = (scan .between cs).map (.mark ':' :: ·) := by
  cases layout with
  | compact => exact scan_of_step_token rfl cs
  | pretty =>
    have blank : Mode.between.step ' ' = some (.between, []) := rfl
    rw [Layout.colon, List.cons_append, scan_of_step_token rfl, List.singleton_append,
      scan_of_step blank]

theorem scan_mark {c : Char} (h : c ∈ ['[', ']', '\x7b', '\x7d', ',', ':']) (cs : List Char) :
    scan .between (c :: cs) = (scan .between cs).map (.mark c :: ·) := by
  refine scan_of_step_token ?_ cs
  simp only [List.mem_cons, List.not_mem_nil, or_false] at h
  rcases h with rfl | rfl | rfl | rfl | rfl | rfl <;> rfl

theorem endsNumber_newline (layout : Layout) (depth : Nat) {cs : List Char} (h : EndsNumber cs) :
    EndsNumber (layout.newline depth ++ cs) := by
  cases layout with
  | compact => exact h
  | pretty => simp [EndsNumber, Layout.newline]

/-! ### Values -/

mutual

/-- The tokens of a value. -/
def tokens : Json → List Token
  | .number n => [.number n]
  | .string s => [.string s]
  | .array [] => [.mark '[', .mark ']']
  | .array (item :: items) => .mark '[' :: tokens item ++ itemTokens items ++ [.mark ']']
  | .object [] => [.mark '\x7b', .mark '\x7d']
  | .object ((key, value) :: fields) =>
    .mark '\x7b' :: .string key :: .mark ':' :: tokens value ++ fieldTokens fields ++
      [.mark '\x7d']

/-- The tokens of the items behind the first one. -/
def itemTokens : List Json → List Token
  | [] => []
  | item :: items => .mark ',' :: tokens item ++ itemTokens items

/-- The tokens of the fields behind the first one. -/
def fieldTokens : List (String × Json) → List Token
  | [] => []
  | (key, value) :: fields =>
    .mark ',' :: .string key :: .mark ':' :: tokens value ++ fieldTokens fields

end

theorem endsNumber_itemChars (layout : Layout) (depth : Nat) (items : List Json) {cs : List Char}
    (h : EndsNumber cs) : EndsNumber (itemChars layout depth items ++ cs) := by
  cases items with
  | nil => simpa [itemChars] using h
  | cons item items => simp [itemChars, EndsNumber]

theorem endsNumber_fieldChars (layout : Layout) (depth : Nat) (fields : List (String × Json))
    {cs : List Char} (h : EndsNumber cs) : EndsNumber (fieldChars layout depth fields ++ cs) := by
  cases fields with
  | nil => simpa [fieldChars] using h
  | cons field fields => simp [fieldChars, EndsNumber]

/-- What stands in front of a closing bracket ends a number. -/
theorem endsNumber_close (layout : Layout) (depth : Nat) {c : Char} (h : c.isDigit = false)
    (cs : List Char) : EndsNumber (layout.newline depth ++ c :: cs) :=
  endsNumber_newline layout depth (by simpa [EndsNumber] using h)

mutual

/-- The text of a value has the tokens of the value. -/
theorem scan_chars (layout : Layout) (depth : Nat) (v : Json) {cs : List Char}
    (h : EndsNumber cs) :
    scan .between (chars layout depth v ++ cs) = (scan .between cs).map (tokens v ++ ·) := by
  match v with
  | .number n => exact scan_toString n h
  | .string s => exact scan_quote s cs
  | .array [] | .object [] =>
    simp only [chars, tokens, List.cons_append, List.nil_append]
    rw [scan_mark (by simp), scan_mark (by simp), Option.map_map]
    rfl
  | .array (item :: items) =>
    have close := endsNumber_close layout depth (c := ']') rfl cs
    have first := scan_chars layout (depth + 1) item
      (endsNumber_itemChars layout (depth + 1) items close)
    have others := scan_itemChars layout (depth + 1) items close
    simp only [chars, tokens, List.cons_append, List.append_assoc, List.nil_append]
    rw [scan_mark (by simp), scan_newline, first, others, scan_newline, scan_mark (by simp)]
    simp only [Option.map_map, Function.comp_def]
  | .object ((key, value) :: fields) =>
    have close := endsNumber_close layout depth (c := '\x7d') rfl cs
    have first := scan_chars layout (depth + 1) value
      (endsNumber_fieldChars layout (depth + 1) fields close)
    have others := scan_fieldChars layout (depth + 1) fields close
    simp only [chars, tokens, List.cons_append, List.append_assoc, List.nil_append]
    rw [scan_mark (by simp), scan_newline, scan_quote, scan_colon, first, others, scan_newline,
      scan_mark (by simp)]
    simp only [Option.map_map, Function.comp_def]

theorem scan_itemChars (layout : Layout) (depth : Nat) (items : List Json) {cs : List Char}
    (h : EndsNumber cs) :
    scan .between (itemChars layout depth items ++ cs) =
      (scan .between cs).map (itemTokens items ++ ·) := by
  match items with
  | [] => simp [itemChars, itemTokens]
  | item :: items =>
    have first := scan_chars layout depth item (endsNumber_itemChars layout depth items h)
    have others := scan_itemChars layout depth items h
    simp only [itemChars, itemTokens, List.cons_append, List.append_assoc]
    rw [scan_mark (by simp), scan_newline, first, others]
    simp only [Option.map_map, Function.comp_def]

theorem scan_fieldChars (layout : Layout) (depth : Nat) (fields : List (String × Json))
    {cs : List Char} (h : EndsNumber cs) :
    scan .between (fieldChars layout depth fields ++ cs) =
      (scan .between cs).map (fieldTokens fields ++ ·) := by
  match fields with
  | [] => simp [fieldChars, fieldTokens]
  | (key, value) :: fields =>
    have first := scan_chars layout depth value (endsNumber_fieldChars layout depth fields h)
    have others := scan_fieldChars layout depth fields h
    simp only [fieldChars, fieldTokens, List.cons_append, List.append_assoc]
    rw [scan_mark (by simp), scan_newline, scan_quote, scan_colon, first, others]
    simp only [Option.map_map, Function.comp_def]

end

/-! ## From tokens to values -/

/-- An array or object that is not yet complete, with what has been read of it. -/
inductive Frame where
  | array (done : List Json)
  /-- The value of a key is read. -/
  | object (done : List (String × Json)) (key : String)

mutual

/-- Reads a value inside of frames, and then all that is left. -/
def value? (frames : List Frame) : List Token → Option Json
  | .number n :: ts => resume? frames (.number n) ts
  | .string s :: ts => resume? frames (.string s) ts
  | .mark '[' :: .mark ']' :: ts => resume? frames (.array []) ts
  | .mark '[' :: ts => value? (.array [] :: frames) ts
  | .mark '\x7b' :: .mark '\x7d' :: ts => resume? frames (.object []) ts
  | .mark '\x7b' :: .string key :: .mark ':' :: ts => value? (.object [] key :: frames) ts
  | _ => none

/-- Goes on behind a value. -/
def resume? (frames : List Frame) (v : Json) (ts : List Token) : Option Json :=
  match frames, ts with
  | [], [] => some v
  | .array done :: frames, .mark ',' :: ts => value? (.array (done ++ [v]) :: frames) ts
  | .array done :: frames, .mark ']' :: ts => resume? frames (.array (done ++ [v])) ts
  | .object done key :: frames, .mark ',' :: .string key' :: .mark ':' :: ts =>
    value? (.object (done ++ [(key, v)]) key' :: frames) ts
  | .object done key :: frames, .mark '\x7d' :: ts =>
    resume? frames (.object (done ++ [(key, v)])) ts
  | _, _ => none

end

/-- No value starts with a closing bracket. -/
theorem value?_open_array (frames : List Frame) (v : Json) (ts : List Token) :
    value? frames (.mark '[' :: (tokens v ++ ts)) =
      value? (.array [] :: frames) (tokens v ++ ts) := by
  match v with
  | .number _ | .string _ | .array [] | .array (_ :: _) | .object [] | .object ((_, _) :: _) =>
    simp [tokens, value?]

mutual

/-- The tokens of a value are put together to it. -/
theorem value?_tokens (v : Json) (frames : List Frame) (ts : List Token) :
    value? frames (tokens v ++ ts) = resume? frames v ts := by
  match v with
  | .number n | .string s | .array [] | .object [] => simp [tokens, value?]
  | .array (item :: items) =>
    simp only [tokens, List.cons_append, List.append_assoc, value?_open_array]
    rw [value?_tokens item, List.nil_append, resume?_itemTokens items, List.nil_append]
  | .object ((key, value) :: fields) =>
    simp only [tokens, List.cons_append, List.append_assoc, value?]
    rw [value?_tokens value, List.nil_append, resume?_fieldTokens fields, List.nil_append]

theorem resume?_itemTokens (items : List Json) (done : List Json) (frames : List Frame) (v : Json)
    (ts : List Token) :
    resume? (.array done :: frames) v (itemTokens items ++ .mark ']' :: ts) =
      resume? frames (.array (done ++ v :: items)) ts := by
  match items with
  | [] => simp [itemTokens, resume?]
  | item :: items =>
    simp only [itemTokens, List.cons_append, List.append_assoc, resume?]
    rw [value?_tokens item, resume?_itemTokens items, List.append_assoc, List.singleton_append]

theorem resume?_fieldTokens (fields : List (String × Json)) (done : List (String × Json))
    (key : String) (frames : List Frame) (v : Json) (ts : List Token) :
    resume? (.object done key :: frames) v (fieldTokens fields ++ .mark '\x7d' :: ts) =
      resume? frames (.object (done ++ (key, v) :: fields)) ts := by
  match fields with
  | [] => simp [fieldTokens, resume?]
  | (key', value) :: fields =>
    simp only [fieldTokens, List.cons_append, List.append_assoc, resume?]
    rw [value?_tokens value, resume?_fieldTokens fields, List.append_assoc,
      List.singleton_append]

end

/-- The value that a text writes. -/
def read? (text : String) : Option Json := (scan .between text.toList).bind (value? [])

end Swimlane.Json
