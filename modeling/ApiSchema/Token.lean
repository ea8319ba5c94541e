import ApiSchema.Text.Blank

/-!
Type texts as words and marks, and the rewriting of their words.

A word is a longest run of characters that are neither blank nor one of the marks
`<`, `>`, `,`, `[`, `]`, `#`. Blanks only separate: they are not kept, and `Token.render` writes
one blank after each comma. `substituteWords` works on whole words, so a name inside of a longer
word is left alone, and a word beside a `#` is a primitive or a format and never replaced.
-/

namespace ApiSchema

/-- The characters that stand for themselves in a type text. -/
def isMark (c : Char) : Bool :=
  c == '<' || c == '>' || c == ',' || c == '[' || c == ']' || c == '#'

/-- The characters of words. -/
def isWordChar (c : Char) : Bool :=
  !isBlank c && !isMark c

/-- A piece of a type text. -/
inductive Token where
  | word (text : Text)
  | mark (c : Char)
  deriving DecidableEq, Repr

namespace Token

/-- The words and marks of a text, in order. -/
def scan : Text → List Token
  | [] => []
  | c :: rest =>
    if isBlank c then scan rest
    else if isMark c then mark c :: scan rest
    else word (c :: rest.takeWhile isWordChar) :: scan (rest.dropWhile isWordChar)
termination_by text => text.length
decreasing_by
  · simp
  · simp
  · have := (List.dropWhile_suffix (l := rest) isWordChar).length_le
    simp only [List.length_cons]
    omega

/-- The text of one piece: a comma is followed by a blank. -/
def text : Token → Text
  | word w => w
  | mark c => if c = ',' then [',', ' '] else [c]

/-- The text of pieces in order. -/
def render (tokens : List Token) : Text :=
  tokens.flatMap text

/-- True if the pieces start with a `#`. -/
def startsWithHash : List Token → Bool
  | mark '#' :: _ => true
  | _ => false

/-- Replaces the words that `lookup` knows, except beside a `#`. The flag says whether the piece
in front is a `#`. -/
def substitute (lookup : Text → Option Text) (afterHash : Bool) : List Token → List Token
  | [] => []
  | mark c :: rest => mark c :: substitute lookup (c == '#') rest
  | word w :: rest =>
    if afterHash || startsWithHash rest then word w :: substitute lookup false rest
    else word ((lookup w).getD w) :: substitute lookup false rest

end Token

/-- Replaces the words of a type text that `lookup` knows, except beside a `#`. -/
def substituteWords (lookup : Text → Option Text) (text : Text) : Text :=
  Token.render (Token.substitute lookup false (Token.scan text))

end ApiSchema
