import ApiSchema.Json.Fault

/-!
The small parts of a JSON text: blanks, words, strings and numbers.

A scanner takes the text from where it stands and gives what it read and what is left. Strings
are checked as they are read: control characters, unknown escapes and surrogates without a
partner are faults. A number keeps as many digits as fit an unsigned word of 64 bits; with a
fraction or an exponent, or out of range, it is that word times or divided by a power of ten,
both rounded to binary64, so it need not be the number nearest to the text.

Main statements: `length_scanHex`, `length_scanEscape`, a scanner leaves less than it was given.
-/

namespace ApiSchema.Json

/-- The blanks between the parts of a text. -/
def isSpace (c : Char) : Bool :=
  c == ' ' || c == '\n' || c == '\t' || c == '\r'

/-- The text from its first character that is no blank. -/
def skipSpaces (text : Text) : Text :=
  text.dropWhile isSpace

/-- What follows a word, if the text starts with it. -/
def scanWord : Text → Text → Except Fault Text
  | [], text => .ok text
  | _ :: _, [] => .error .endOfValue
  | c :: word, d :: text => if c = d then scanWord word text else .error .expectedWord

/-! ## Strings -/

/-- The value of a hexadecimal digit. -/
def hexValue? (c : Char) : Option Nat :=
  if c.isDigit then some (c.toNat - '0'.toNat)
  else if 'a' ≤ c ∧ c ≤ 'f' then some (c.toNat - 'a'.toNat + 10)
  else if 'A' ≤ c ∧ c ≤ 'F' then some (c.toNat - 'A'.toNat + 10)
  else none

/-- The value of four hexadecimal digits. -/
def hexValue4? (a b c d : Char) : Option Nat := do
  let a ← hexValue? a
  let b ← hexValue? b
  let c ← hexValue? c
  let d ← hexValue? d
  return ((a * 16 + b) * 16 + c) * 16 + d

/-- Four hexadecimal digits. Whether the text ends too early is told by its bytes. -/
def scanHex (text : Text) : Except Fault (Nat × Text) :=
  if Text.byteCount (text.take 4) < 4 then .error .endOfString
  else match text with
    | a :: b :: c :: d :: rest =>
      match hexValue4? a b c d with
      | some n => .ok (n, rest)
      | none => .error .invalidEscape
    | _ => .error .invalidEscape

/-- True of the first halves of surrogate pairs. -/
def isHighSurrogate (n : Nat) : Bool :=
  0xD800 ≤ n && n ≤ 0xDBFF

/-- True of the second halves of surrogate pairs. -/
def isLowSurrogate (n : Nat) : Bool :=
  0xDC00 ≤ n && n ≤ 0xDFFF

/-- The second half of a surrogate pair, after the first half. -/
def scanLowSurrogate (text : Text) : Except Fault (Nat × Text) :=
  match text with
  | [] => .error .endOfString
  | ['\\'] => .error .endOfString
  | '\\' :: 'u' :: rest => do
    let (n, rest) ← scanHex rest
    if isLowSurrogate n then .ok (n, rest) else .error .loneSurrogate
  | _ => .error .endOfEscape

/-- A character by its code unit or units, after `\u`. -/
def scanCodePoint (text : Text) : Except Fault (Char × Text) :=
  match scanHex text with
  | .error fault => .error fault
  | .ok (high, rest) =>
    if isLowSurrogate high then .error .loneSurrogate
    else if isHighSurrogate high then
      match scanLowSurrogate rest with
      | .error fault => .error fault
      | .ok (low, rest) =>
        .ok (Char.ofNat (0x10000 + (high - 0xD800) * 0x400 + (low - 0xDC00)), rest)
    else .ok (Char.ofNat high, rest)

/-- The character that a letter after a backslash stands for. -/
def escapedChar? (c : Char) : Option Char :=
  if c = '"' ∨ c = '\\' ∨ c = '/' then some c
  else if c = 'b' then some '\x08'
  else if c = 'f' then some '\x0c'
  else if c = 'n' then some '\n'
  else if c = 'r' then some '\r'
  else if c = 't' then some '\t'
  else none

/-- An escaped character, after the backslash. -/
def scanEscape (text : Text) : Except Fault (Char × Text) :=
  match text with
  | [] => .error .endOfString
  | c :: rest =>
    if c = 'u' then scanCodePoint rest
    else match escapedChar? c with
      | some d => .ok (d, rest)
      | none => .error .invalidEscape

theorem length_scanHex {text rest : Text} {n : Nat} (h : scanHex text = .ok (n, rest)) :
    rest.length < text.length := by
  unfold scanHex at h
  split at h
  · cases h
  · split at h
    · split at h <;> cases h
      simp only [List.length_cons]
      omega
    · cases h

theorem length_scanLowSurrogate {text rest : Text} {n : Nat}
    (h : scanLowSurrogate text = .ok (n, rest)) : rest.length < text.length := by
  unfold scanLowSurrogate at h
  split at h
  · cases h
  · cases h
  · rename_i tail
    cases hs : scanHex tail with
    | error fault => simp [hs, bind, Except.bind] at h
    | ok read =>
      simp only [hs, bind, Except.bind] at h
      split at h <;> cases h
      have := length_scanHex hs
      simp only [List.length_cons]
      omega
  · cases h

theorem length_scanCodePoint {text rest : Text} {c : Char}
    (h : scanCodePoint text = .ok (c, rest)) : rest.length < text.length := by
  unfold scanCodePoint at h
  split at h
  · cases h
  · rename_i hs
    have := length_scanHex hs
    split at h
    · cases h
    · split at h
      · split at h
        · cases h
        · rename_i hl
          have := length_scanLowSurrogate hl
          rw [← (Prod.mk.inj (Except.ok.inj h)).2]
          omega
      · rw [← (Prod.mk.inj (Except.ok.inj h)).2]
        omega

theorem length_scanEscape {text rest : Text} {c : Char} (h : scanEscape text = .ok (c, rest)) :
    rest.length < text.length := by
  unfold scanEscape at h
  split at h
  · cases h
  · split at h
    · have := length_scanCodePoint h
      simp only [List.length_cons]
      omega
    · split at h <;> cases h
      simp

/-- The rest of a string, after its opening quote or some characters, given in reverse. -/
def scanStringFrom (reversed : Text) (text : Text) : Except Fault (Text × Text) :=
  match text with
  | [] => .error .endOfString
  | c :: rest =>
    if c = '"' then .ok (reversed.reverse, rest)
    else if c = '\\' then
      match h : scanEscape rest with
      | .error fault => .error fault
      | .ok (d, rest') =>
        have := length_scanEscape h
        scanStringFrom (d :: reversed) rest'
    else if c.toNat < 0x20 then .error .controlCharacter
    else scanStringFrom (c :: reversed) rest
termination_by text.length

/-- A string, after its opening quote. -/
def scanString (text : Text) : Except Fault (Text × Text) :=
  scanStringFrom [] text

/-! ## Numbers -/

/-- A number as it is written. -/
inductive Number where
  | integer (n : Integer)
  | float (x : Binary64)
  deriving DecidableEq, Repr

/-- The integer of an absolute value and a sign. Negative zero and what is out of range become
binary64 numbers. -/
def Number.ofSigned? (negative : Bool) (m : Nat) : Option Number :=
  let n : Int := if negative then -m else m
  match Integer.ofInt? n with
  | some i => if negative && m == 0 then some (.float Binary64.zero.neg) else some (.integer i)
  | none => (Binary64.nearest? m 1).map fun x => .float (if negative then x.neg else x)

/-- A number divided by a power of ten. Beyond ten to the 308th it is divided in steps. -/
def divideByTen (x : Binary64) (power : Nat) : Option Binary64 :=
  if power ≤ 308 then do x.div? (← Binary64.nearest? (Nat.pow 10 power) 1)
  else if x.isZero then some x
  else do
    let y ← x.div? (← Binary64.nearest? (Nat.pow 10 308) 1)
    divideByTen y (power - 308)
termination_by power

/-- A word times a power of ten, both rounded first; nothing if that is too large. -/
def scaleByTen (m : Nat) (exponent : Int) : Option Binary64 := do
  let x ← Binary64.nearest? m 1
  if exponent < 0 then divideByTen x exponent.natAbs
  else if exponent ≤ 308 then x.mul? (← Binary64.nearest? (Nat.pow 10 exponent.toNat) 1)
  else if x.isZero then return x
  else none

/-- The binary64 number of a sign, a word and an exponent of ten. -/
def Number.ofScaled (negative : Bool) (m : Nat) (exponent : Int) : Except Fault Number :=
  match scaleByTen m exponent with
  | some x => .ok (.float (if negative then x.neg else x))
  | none => .error .numberOutOfRange

/-- Takes digits into a word of 64 bits as long as they fit, and counts the ones left over. -/
def takeDigits (m : Nat) : Text → Nat × Nat
  | [] => (m, 0)
  | c :: rest =>
    let next := 10 * m + digitValue c
    if next < UInt64.size then takeDigits next rest else (m, rest.length + 1)

/-- An exponent and what it makes of a word, after the `e`. -/
def scanExponent (negative : Bool) (m : Nat) (exponent : Int) (text : Text) :
    Except Fault (Number × Text) :=
  let (minus, text) := match text with
    | '+' :: rest => (false, rest)
    | '-' :: rest => (true, rest)
    | _ => (false, text)
  match text with
  | [] => .error .endOfValue
  | c :: _ =>
    if c.isDigit then
      let power : Int := natOfDigits (text.takeWhile Char.isDigit)
      (Number.ofScaled negative m (if minus then exponent - power else exponent + power)).map
        (·, text.dropWhile Char.isDigit)
    else .error .invalidNumber

/-- True if the text goes on with an exponent. -/
def startsExponent (text : Text) : Bool :=
  match text with
  | c :: _ => c == 'e' || c == 'E'
  | [] => false

/-- The digits after a point, and the exponent if there is one. -/
def scanFraction (negative : Bool) (m : Nat) (exponent : Int) (text : Text) :
    Except Fault (Number × Text) :=
  match text with
  | [] => .error .endOfValue
  | c :: _ =>
    if c.isDigit then
      let places := text.takeWhile Char.isDigit
      let rest := text.dropWhile Char.isDigit
      let (m, left) := takeDigits m places
      let exponent := exponent - (places.length - left : Nat)
      if startsExponent rest then scanExponent negative m exponent (rest.drop 1)
      else (Number.ofScaled negative m exponent).map (·, rest)
    else .error .invalidNumber

/-- What follows the digits in front of the point. -/
def scanAfterWhole (negative : Bool) (m left : Nat) (text : Text) :
    Except Fault (Number × Text) :=
  match text with
  | '.' :: rest => scanFraction negative m left rest
  | _ =>
    if startsExponent text then scanExponent negative m left (text.drop 1)
    else if left = 0 then
      match Number.ofSigned? negative m with
      | some n => .ok (n, text)
      | none => .error .numberOutOfRange
    else (Number.ofScaled negative m left).map (·, text)

/-- A number, after its sign. A zero in front of other digits is a fault. -/
def scanNumber (negative : Bool) (text : Text) : Except Fault (Number × Text) :=
  match text with
  | [] => .error .endOfValue
  | c :: rest =>
    if c = '0' then
      if rest.head?.any Char.isDigit then .error .invalidNumber
      else scanAfterWhole negative 0 0 rest
    else if c.isDigit then
      let (m, left) := takeDigits 0 (text.takeWhile Char.isDigit)
      scanAfterWhole negative m left (text.dropWhile Char.isDigit)
    else .error .invalidNumber

end ApiSchema.Json
