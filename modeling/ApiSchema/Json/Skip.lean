import ApiSchema.Json.Scan

/-!
Skipping a JSON value without reading it.

The members of a record that it does not know are skipped. Only the form is checked: numbers may
be of any size, surrogates need no partner, and values may be nested to any depth.

Main statement: `length_skipEscape`, an escape is not empty.
-/

namespace ApiSchema.Json

/-- Passes over an escaped character, after the backslash. -/
def skipEscape (text : Text) : Except Fault Text :=
  match text with
  | [] => .error .endOfString
  | c :: rest =>
    if c = 'u' then (scanHex rest).map Prod.snd
    else if (escapedChar? c).isSome then .ok rest
    else .error .invalidEscape

theorem length_skipEscape {text rest : Text} (h : skipEscape text = .ok rest) :
    rest.length < text.length := by
  unfold skipEscape at h
  split at h
  · cases h
  · rename_i tail
    split at h
    · cases hs : scanHex tail with
      | error fault => simp [hs, Except.map] at h
      | ok read =>
        obtain ⟨n, after⟩ := read
        simp only [hs, Except.map] at h
        cases h
        have := length_scanHex hs
        simp only [List.length_cons]
        omega
    · split at h <;> cases h
      simp

/-- Passes over the rest of a string, after its opening quote. -/
def skipString (text : Text) : Except Fault Text :=
  match text with
  | [] => .error .endOfString
  | c :: rest =>
    if c = '"' then .ok rest
    else if c = '\\' then
      match h : skipEscape rest with
      | .error fault => .error fault
      | .ok rest' =>
        have := length_skipEscape h
        skipString rest'
    else if c.toNat < 0x20 then .error .controlCharacter
    else skipString rest
termination_by text.length

/-- Passes over one or more digits. -/
def skipDigits (text : Text) : Except Fault Text :=
  if text.head?.any Char.isDigit then .ok (text.dropWhile Char.isDigit) else .error .invalidNumber

/-- Passes over an exponent, if there is one. -/
def skipExponent (text : Text) : Except Fault Text :=
  if startsExponent text then
    match text.drop 1 with
    | '+' :: rest => skipDigits rest
    | '-' :: rest => skipDigits rest
    | rest => skipDigits rest
  else .ok text

/-- Passes over a number, after its sign. -/
def skipNumber (text : Text) : Except Fault Text := do
  let rest ← match text with
    | '0' :: rest => if rest.head?.any Char.isDigit then .error .invalidNumber else .ok rest
    | _ => skipDigits text
  match rest with
  | '.' :: places => skipExponent (← skipDigits places)
  | _ => skipExponent rest

/-! ## Nested values -/

/-- A list or an object that is open. -/
inductive Bracket where
  | list
  | object
  deriving DecidableEq, Repr

namespace Bracket

/-- The character that closes it. -/
def closing : Bracket → Char
  | list => ']'
  | object => '}'

/-- The fault when the text ends inside of it. -/
def endFault : Bracket → Fault
  | list => .endOfList
  | object => .endOfObject

/-- The fault when a value in it is followed neither by a comma nor by its end. -/
def expectedFault : Bracket → Fault
  | list => .expectedListCommaOrEnd
  | object => .expectedObjectCommaOrEnd

end Bracket

/-- Passes over a scalar, or opens a bracket. Tells whether a value was passed, what is open
then, and what is left. -/
def skipStart (opened : List Bracket) (text : Text) : Except Fault (Bool × List Bracket × Text) :=
  match skipSpaces text with
  | [] => .error .endOfValue
  | c :: rest =>
    if c = 'n' then (scanWord "ull".toList rest).map (true, opened, ·)
    else if c = 't' then (scanWord "rue".toList rest).map (true, opened, ·)
    else if c = 'f' then (scanWord "alse".toList rest).map (true, opened, ·)
    else if c = '-' then (skipNumber rest).map (true, opened, ·)
    else if c.isDigit then (skipNumber (c :: rest)).map (true, opened, ·)
    else if c = '"' then (skipString rest).map (true, opened, ·)
    else if c = '[' then .ok (false, .list :: opened, rest)
    else if c = '{' then .ok (false, .object :: opened, rest)
    else .error .expectedValue

/-- Closes what closes here, and passes over the comma before a next value. -/
def closeBrackets (afterValue : Bool) : List Bracket → Text → Except Fault (List Bracket × Text)
  | [], text => .ok ([], text)
  | bracket :: outer, text =>
    match skipSpaces text with
    | [] => .error bracket.endFault
    | c :: rest =>
      if afterValue && c == ',' then .ok (bracket :: outer, rest)
      else if c = bracket.closing then closeBrackets true outer rest
      else if afterValue then .error bracket.expectedFault
      else .ok (bracket :: outer, c :: rest)

/-- Passes over the key of a member and its colon. -/
def skipKey (text : Text) : Except Fault Text :=
  match skipSpaces text with
  | [] => .error .endOfObject
  | c :: rest =>
    if c = '"' then do
      match skipSpaces (← skipString rest) with
      | [] => .error .endOfObject
      | d :: rest => if d = ':' then .ok rest else .error .expectedColon
    else .error .keyNotString

/-- Passes over values until nothing is open. There are at most `values` of them. -/
def skipOpen : Nat → List Bracket → Text → Except Fault Text
  | 0, _, _ => .error .endOfValue
  | values + 1, opened, text => do
    let (afterValue, opened, rest) ← skipStart opened text
    let (opened, rest) ← closeBrackets afterValue opened rest
    match opened with
    | [] => .ok rest
    | .list :: _ => skipOpen values opened rest
    | .object :: _ => skipOpen values opened (← skipKey rest)

/-- Passes over one value of a text that holds at most `values` values. -/
def skipValue (values : Nat) (text : Text) : Except Fault Text :=
  skipOpen (values + 1) [] text

end ApiSchema.Json
