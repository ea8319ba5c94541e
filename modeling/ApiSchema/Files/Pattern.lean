import ApiSchema.Decimal.Digits

/-!
Patterns for the names of files.

`?` stands for any character, `*` for any characters, and `[...]` for one of the characters or
ranges between the brackets, or with `!` in front for any other one. A part `**` stands for any
number of folders, and has to be a part by itself. Everything else stands for itself.
-/

namespace ApiSchema.Pattern

/-- Characters from the first to the last, both included. -/
structure CharRange where
  first : Char
  last : Char
  deriving DecidableEq, Repr

/-- True of the characters in a range. -/
def CharRange.contains (range : CharRange) (c : Char) : Bool :=
  range.first ≤ c && c ≤ range.last

/-- A piece of a pattern. -/
inductive Piece where
  | char (c : Char)
  | anyChar
  | anyOf (ranges : List CharRange)
  | noneOf (ranges : List CharRange)
  | anyText
  | anyFolders
  deriving DecidableEq, Repr

/-- Why a text is no pattern, and where. -/
inductive PatternFault where
  /-- more than two stars in a row -/
  | tooManyStars (position : Nat)
  /-- two stars that are not a part by themselves -/
  | partialFolders (position : Nat)
  /-- an opening bracket without a proper end -/
  | badRange (position : Nat)
  deriving DecidableEq, Repr

/-- The message for a fault. -/
def PatternFault.message (fault : PatternFault) : Text :=
  let at_ (position : Nat) (reason : String) : Text :=
    "Pattern syntax error near position ".toList ++ digits position ++ ": ".toList ++ reason.toList
  match fault with
  | tooManyStars position =>
    at_ position "wildcards are either regular `*` or recursive `**`"
  | partialFolders position =>
    at_ position "recursive wildcards must form a single path component"
  | badRange position => at_ position "invalid range pattern"

/-- The ranges between brackets: two characters with a hyphen between them, or one. -/
def ranges : Text → List CharRange
  | a :: '-' :: b :: rest => ⟨a, b⟩ :: ranges rest
  | a :: rest => ⟨a, a⟩ :: ranges rest
  | [] => []

/-- The text between brackets and what follows. The first character of the text may be a closing
bracket. -/
def bracketed? (text : Text) : Option (Text × Text) :=
  match text with
  | [] => none
  | c :: rest =>
    match rest.dropWhile (· != ']') with
    | [] => none
    | _ :: after => some (c :: rest.takeWhile (· != ']'), after)

/-- One piece of a pattern with the number of characters it takes. `previous` is the character
in front of it. -/
def piece (position : Nat) (previous : Option Char) (c : Char) (rest : Text) :
    Except PatternFault (Piece × Nat) :=
  if c = '?' then .ok (.anyChar, 1)
  else if c = '*' then
    match rest.takeWhile (· == '*'), rest.dropWhile (· == '*') with
    | [], _ => .ok (.anyText, 1)
    | [_], after =>
      if previous.any (· != '/') then .error (.partialFolders (position - 1))
      else match after with
        | [] => .ok (.anyFolders, 2)
        | d :: _ =>
          if d = '/' then .ok (.anyFolders, 3) else .error (.partialFolders (position + 2))
    | _, _ => .error (.tooManyStars (position + 2))
  else if c = '[' then
    if rest.head? = some '!' then
      match bracketed? (rest.drop 1) with
      | some (inside, _) => .ok (.noneOf (ranges inside), inside.length + 3)
      | none => .error (.badRange position)
    else match bracketed? rest with
      | some (inside, _) => .ok (.anyOf (ranges inside), inside.length + 2)
      | none => .error (.badRange position)
  else .ok (.char c, 1)

/-- The pieces of a pattern from some position on. `taken` characters of the text belong to the
piece before. -/
def piecesFrom (position taken : Nat) (previous : Option Char) :
    Text → Except PatternFault (List Piece)
  | [] => .ok []
  | c :: rest =>
    match taken with
    | taken + 1 => piecesFrom (position + 1) taken (some c) rest
    | 0 => do
      let (first, size) ← piece position previous c rest
      return first :: (← piecesFrom (position + 1) (size - 1) (some c) rest)

/-- The pieces of a pattern. -/
def pieces (text : Text) : Except PatternFault (List Piece) :=
  piecesFrom 0 0 none text

/-- The text that a pattern without wildcards stands for. -/
def literal? : List Piece → Option Text
  | [] => some []
  | .char c :: rest => (literal? rest).map (c :: ·)
  | _ :: _ => none

/-- True if a piece that stands for one character stands for this one. -/
def Piece.accepts : Piece → Char → Bool
  | .char d, c => c == d
  | .anyChar, _ => true
  | .anyOf ranges, c => ranges.any (·.contains c)
  | .noneOf ranges, c => !ranges.any (·.contains c)
  | .anyText, _ => false
  | .anyFolders, _ => false

/-! ## Matching

A name is held against a pattern from the end of the pattern to its front. For every end of the
name, from the whole name down to the empty one, a list of flags tells whether the pieces so far
stand for it, so the work grows with the length of the name times the number of pieces. The theorems
from `accepts_nil` on say what one more piece does.
-/

/-- For every place in a list of flags, whether one is set there or later. -/
def setFrom : List Bool → List Bool
  | [] => []
  | flag :: rest =>
    let later := setFrom rest
    (flag || later.headD false) :: later

/-- The flags for one piece more in front. -/
def Piece.extend (name : Text) (flags : List Bool) : Piece → List Bool
  | .anyText => setFrom flags
  | .anyFolders => setFrom flags
  | piece => List.zipWith (fun c flag => piece.accepts c && flag) name flags.tail ++ [false]

/-- Whether a pattern stands for the ends of a name, the longest end first. -/
def acceptsEnds (name : Text) : List Piece → List Bool
  | [] => name.map (fun _ => false) ++ [true]
  | piece :: rest => piece.extend name (acceptsEnds name rest)

/-- True of the names that a pattern stands for. -/
def accepts (pieces : List Piece) (name : Text) : Bool :=
  (acceptsEnds name pieces).headD false

/-- True of the pieces that stand for one character. -/
def Piece.isSingle : Piece → Bool
  | .anyText => false
  | .anyFolders => false
  | _ => true

theorem length_setFrom (flags : List Bool) : (setFrom flags).length = flags.length := by
  induction flags with
  | nil => rfl
  | cons flag rest ih => simp [setFrom, ih]

theorem Piece.extend_of_isSingle {piece : Piece} (h : piece.isSingle = true) (name : Text)
    (flags : List Bool) :
    piece.extend name flags
      = List.zipWith (fun c flag => piece.accepts c && flag) name flags.tail ++ [false] := by
  cases piece <;> simp_all [Piece.extend, Piece.isSingle]

theorem length_acceptsEnds (name : Text) (pieces : List Piece) :
    (acceptsEnds name pieces).length = name.length + 1 := by
  induction pieces with
  | nil => simp [acceptsEnds]
  | cons piece rest ih =>
    by_cases h : piece.isSingle = true
    · simp [acceptsEnds, Piece.extend_of_isSingle h, ih]
    · cases piece <;> simp_all [acceptsEnds, Piece.extend, Piece.isSingle, length_setFrom]

/-- The flags for the ends of a name without its first character are those for the name without
the first one. -/
theorem acceptsEnds_cons (c : Char) (name : Text) (pieces : List Piece) :
    acceptsEnds (c :: name) pieces = accepts pieces (c :: name) :: acceptsEnds name pieces := by
  suffices h : (acceptsEnds (c :: name) pieces).tail = acceptsEnds name pieces by
    have hn := length_acceptsEnds (c :: name) pieces
    unfold accepts
    cases he : acceptsEnds (c :: name) pieces with
    | nil => simp [he] at hn
    | cons flag rest => simp [he] at h; simp [h]
  induction pieces with
  | nil => rfl
  | cons piece rest ih =>
    have hl := length_acceptsEnds name rest
    cases he : acceptsEnds (c :: name) rest with
    | nil => simpa [he] using length_acceptsEnds (c :: name) rest
    | cons flag flags =>
      simp only [he, List.tail_cons] at ih
      cases hf : flags with
      | nil => simp [← ih, hf] at hl
      | cons next more =>
        by_cases h : piece.isSingle = true
        · simp [acceptsEnds, Piece.extend_of_isSingle h, he, ← ih, hf]
        · cases piece <;>
            simp_all [acceptsEnds, Piece.extend, Piece.isSingle, setFrom]

/-- A pattern without pieces stands for the empty name. -/
theorem accepts_nil (name : Text) : accepts [] name = name.isEmpty := by
  cases name <;> rfl

/-- Any text is the empty one, or a character and any text. -/
theorem accepts_anyText (rest : List Piece) (c : Char) (name : Text) :
    accepts (.anyText :: rest) (c :: name)
      = (accepts rest (c :: name) || accepts (.anyText :: rest) name) := by
  rw [accepts, acceptsEnds, Piece.extend, acceptsEnds_cons]
  rfl

/-- Any text stands for the empty name if what follows it does. -/
theorem accepts_anyText_nil (rest : List Piece) :
    accepts (.anyText :: rest) [] = accepts rest [] := by
  have hl := length_acceptsEnds [] rest
  rw [accepts, acceptsEnds, Piece.extend, accepts]
  match acceptsEnds [] rest, hl with
  | [flag], _ => simp [setFrom]

/-- No piece for one character stands for the empty name. -/
theorem accepts_nil_of_single {piece : Piece} (h : piece.isSingle = true) (rest : List Piece) :
    accepts (piece :: rest) [] = false := by
  simp [accepts, acceptsEnds, Piece.extend_of_isSingle h]

/-- A piece for one character takes one. -/
theorem accepts_cons_of_single {piece : Piece} (h : piece.isSingle = true) (rest : List Piece)
    (c : Char) (name : Text) :
    accepts (piece :: rest) (c :: name) = (piece.accepts c && accepts rest name) := by
  have hl := length_acceptsEnds name rest
  rw [accepts, acceptsEnds, Piece.extend_of_isSingle h, acceptsEnds_cons]
  cases he : acceptsEnds name rest with
  | nil => simp [he] at hl
  | cons flag flags => simp [accepts, he]

end ApiSchema.Pattern
