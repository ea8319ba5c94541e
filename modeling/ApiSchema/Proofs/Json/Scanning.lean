import Mathlib.Tactic.SplitIfs
import ApiSchema.Json.Printer
import ApiSchema.Json.Reader

/-!
# Scanning what was printed

A scanner takes the text of a string or an integer off the start of a text and gives what it was
printed from (`scanString_print`, `scan_signedDigits`). A string is closed by its own quote, but the
digits of an integer end only where something else begins, so the integer has to be followed by the
end of the text, a comma or a closing bracket (`Closes`).
-/

namespace ApiSchema.Json

/-- The text is at its end, or goes on with what may stand behind a value inside of another. -/
def Closes (rest : Text) : Prop :=
  ∀ c ∈ rest.head?, c = ',' ∨ c = ']' ∨ c = '}'

theorem closes_nil : Closes [] := by
  simp [Closes]

theorem closes_cons {c : Char} (closing : c = ',' ∨ c = ']' ∨ c = '}') (rest : Text) :
    Closes (c :: rest) := by
  simpa [Closes] using closing

/-! ## Strings -/

theorem scanStringFrom_escape {text rest : Text} {c : Char} (reversed : Text)
    (escaped : scanEscape text = .ok (c, rest)) :
    scanStringFrom reversed ('\\' :: text) = scanStringFrom (c :: reversed) rest := by
  rw [scanStringFrom, if_neg (by decide), if_pos rfl]
  split
  · rename_i fault failed
    rw [escaped] at failed
    cases failed
  · rename_i other after scanned
    rw [escaped] at scanned
    cases scanned
    rfl

/-- The code units below the blank, by their four hexadecimal digits. -/
theorem scanCodePoint_control {n : Nat} (small : n < 0x20) (rest : Text) :
    scanCodePoint ('0' :: '0' :: hexChar (n / 16) :: hexChar (n % 16) :: rest) =
      .ok (Char.ofNat n, rest) := by
  have units : ∀ n < 0x20,
      Text.byteCount ['0', '0', hexChar (n / 16), hexChar (n % 16)] = 4 ∧
        hexValue4? '0' '0' (hexChar (n / 16)) (hexChar (n % 16)) = some n ∧
        isLowSurrogate n = false ∧ isHighSurrogate n = false := by decide
  obtain ⟨bytes, value, low, high⟩ := units n small
  have scanned : scanHex ('0' :: '0' :: hexChar (n / 16) :: hexChar (n % 16) :: rest) =
      .ok (n, rest) := by
    rw [scanHex, List.take_succ_cons, List.take_succ_cons, List.take_succ_cons,
      List.take_succ_cons, List.take_zero, bytes, if_neg (by decide)]
    simp only [value]
  simp [scanCodePoint, scanned, low, high]

/-- A printed character is scanned as that character. -/
theorem scanStringFrom_escapeChar (reversed : Text) (c : Char) (rest : Text) :
    scanStringFrom reversed (escapeChar c ++ rest) = scanStringFrom (c :: reversed) rest := by
  unfold escapeChar
  split_ifs with quote backslash backspace tab newline formFeed return' control
  · rw [quote]
    exact scanStringFrom_escape reversed rfl
  · rw [backslash]
    exact scanStringFrom_escape reversed rfl
  · rw [backspace]
    exact scanStringFrom_escape reversed rfl
  · rw [tab]
    exact scanStringFrom_escape reversed rfl
  · rw [newline]
    exact scanStringFrom_escape reversed rfl
  · rw [formFeed]
    exact scanStringFrom_escape reversed rfl
  · rw [return']
    exact scanStringFrom_escape reversed rfl
  · have unit := scanCodePoint_control control rest
    rw [Char.ofNat_toNat] at unit
    exact scanStringFrom_escape reversed unit
  · rw [List.singleton_append, scanStringFrom, if_neg quote, if_neg backslash, if_neg control]

theorem scanStringFrom_print (reversed text rest : Text) :
    scanStringFrom reversed (text.flatMap escapeChar ++ '"' :: rest) =
      .ok (reversed.reverse ++ text, rest) := by
  induction text generalizing reversed with
  | nil => rw [List.flatMap_nil, List.nil_append, scanStringFrom, if_pos rfl, List.append_nil]
  | cons c text ih =>
    rw [List.flatMap_cons, List.append_assoc, scanStringFrom_escapeChar, ih, List.reverse_cons,
      List.append_assoc, List.singleton_append]

/-- A printed string is scanned, whatever follows its closing quote. -/
theorem scanString_print (text rest : Text) :
    scanString (text.flatMap escapeChar ++ '"' :: rest) = .ok (text, rest) :=
  scanStringFrom_print [] text rest

/-! ## Numbers -/

theorem digits_ne_nil (n : Nat) : digits n ≠ [] := by
  rw [digits]
  split <;> simp

theorem isDigit_of_mem_digits (n : Nat) : ∀ c ∈ digits n, c.isDigit = true := by
  induction n using digits.induct with
  | case1 n small =>
    rw [digits, if_pos small]
    simpa using isDigit_digitChar small
  | case2 n large ih =>
    rw [digits, if_neg large]
    intro c member
    rcases List.mem_append.1 member with front | last
    · exact ih c front
    · rw [List.mem_singleton.1 last]
      exact isDigit_digitChar (Nat.mod_lt n (by decide))

/-- Only zero is written with a zero in front. -/
theorem head?_digits_ne_zero {n : Nat} (nonzero : n ≠ 0) : (digits n).head? ≠ some '0' := by
  induction n using digits.induct with
  | case1 n small =>
    have plain : ∀ m < 10, m ≠ 0 → [digitChar m].head? ≠ some '0' := by decide
    rw [digits, if_pos small]
    exact plain n small nonzero
  | case2 n large ih =>
    rw [digits, if_neg large, List.head?_append]
    intro first
    cases front : (digits (n / 10)).head? with
    | none => exact digits_ne_nil _ (List.head?_eq_none_iff.1 front)
    | some c =>
      rw [front] at first
      exact ih (by omega) (front.trans first)

theorem le_foldl_digits (text : Text) (m : Nat) :
    m ≤ text.foldl (fun n c => 10 * n + digitValue c) m := by
  induction text generalizing m with
  | nil => exact Nat.le_refl m
  | cons c text ih => exact Nat.le_trans (by omega) (ih (10 * m + digitValue c))

/-- Digits that fit a word are all taken. -/
theorem takeDigits_of_fits {text : Text} {m : Nat}
    (fits : text.foldl (fun n c => 10 * n + digitValue c) m < UInt64.size) :
    takeDigits m text = (text.foldl (fun n c => 10 * n + digitValue c) m, 0) := by
  induction text generalizing m with
  | nil => rfl
  | cons c text ih =>
    have next : 10 * m + digitValue c < UInt64.size :=
      Nat.lt_of_le_of_lt (le_foldl_digits text _) fits
    rw [takeDigits, if_pos next]
    exact ih fits

theorem ne_of_isDigit {c d : Char} (digit : c.isDigit = true) (other : d.isDigit = false) :
    c ≠ d := by
  rintro rfl
  rw [digit] at other
  cases other

theorem isSpace_eq_false_of_isDigit {c : Char} (digit : c.isDigit = true) : isSpace c = false := by
  simp only [isSpace, Bool.or_eq_false_iff, beq_eq_false_iff_ne]
  exact ⟨⟨⟨ne_of_isDigit digit rfl, ne_of_isDigit digit rfl⟩, ne_of_isDigit digit rfl⟩,
    ne_of_isDigit digit rfl⟩

/-- No digit stands where something closes. -/
theorem Closes.head?_any_isDigit {rest : Text} (closes : Closes rest) :
    rest.head?.any Char.isDigit = false := by
  rw [Option.any_eq_false]
  intro c first
  rcases closes c first with rfl | rfl | rfl <;> decide

/-- A run of digits ends where something closes. -/
theorem Closes.takeWhile_digits {front rest : Text} (closes : Closes rest)
    (digits : ∀ c ∈ front, c.isDigit = true) :
    (front ++ rest).takeWhile Char.isDigit = front ∧
      (front ++ rest).dropWhile Char.isDigit = rest := by
  rw [List.takeWhile_append_of_pos digits, List.dropWhile_append_of_pos digits]
  cases rest with
  | nil => simp
  | cons c rest =>
    have stop : c.isDigit = false := closes.head?_any_isDigit
    simp [stop]

/-- What closes goes on with neither a fraction nor an exponent. -/
theorem scanAfterWhole_of_closes {negative : Bool} {m : Nat} {n : Number} {rest : Text}
    (closes : Closes rest) (made : Number.ofSigned? negative m = some n) :
    scanAfterWhole negative m 0 rest = .ok (n, rest) := by
  unfold scanAfterWhole
  split
  · rename_i after
    rcases closes '.' rfl with same | same | same <;> cases same
  · have whole : startsExponent rest = false := by
      cases rest with
      | nil => rfl
      | cons c rest => rcases closes c rfl with rfl | rfl | rfl <;> rfl
    rw [whole, if_neg (by decide), if_pos rfl, made]

theorem scanNumber_digits {negative : Bool} {m : Nat} {n : Number} {rest : Text}
    (closes : Closes rest) (fits : m < UInt64.size) (made : Number.ofSigned? negative m = some n) :
    scanNumber negative (digits m ++ rest) = .ok (n, rest) := by
  have allDigits := isDigit_of_mem_digits m
  obtain ⟨c, text, spelled⟩ := List.exists_cons_of_ne_nil (digits_ne_nil m)
  by_cases zero : m = 0
  · have scanned : digits m ++ rest = '0' :: rest := by
      rw [zero, digits, if_pos (by decide)]
      rfl
    rw [scanned, scanNumber, if_pos rfl, closes.head?_any_isDigit, if_neg (by decide)]
    rw [zero] at made
    exact scanAfterWhole_of_closes closes made
  · have first : c ≠ '0' := by
      rintro rfl
      exact head?_digits_ne_zero zero (by rw [spelled]; rfl)
    have digit : c.isDigit = true := allDigits c (by rw [spelled]; exact List.mem_cons_self ..)
    have total : (digits m).foldl (fun n c => 10 * n + digitValue c) 0 = m := natOfDigits_digits m
    have taken : takeDigits 0 (digits m) = (m, 0) := by
      have whole := takeDigits_of_fits (total.symm ▸ fits)
      rwa [total] at whole
    obtain ⟨front, left⟩ := closes.takeWhile_digits allDigits
    rw [← front, spelled, List.cons_append] at taken
    rw [spelled, List.cons_append] at left ⊢
    rw [scanNumber, if_neg first, if_pos digit, taken, left]
    exact scanAfterWhole_of_closes closes made

/-- An integer and its sign make that integer again. -/
theorem ofSigned?_natAbs (n : Integer) :
    n.val.natAbs < UInt64.size ∧ Number.ofSigned? (n.val < 0) n.val.natAbs = some (.integer n) := by
  have lower : -(2 ^ 63 : Int) ≤ n.val := n.lower
  have upper : n.val < 2 ^ 64 := n.upper
  have fits : n.val.natAbs < UInt64.size := by
    show n.val.natAbs < 2 ^ 64
    omega
  have signed : (if decide (n.val < 0) then -(n.val.natAbs : Int) else n.val.natAbs) = n.val := by
    simp only [decide_eq_true_eq]
    split <;> omega
  have nonzero : ¬ (decide (n.val < 0) && n.val.natAbs == 0) = true := by
    simp only [Bool.and_eq_true, decide_eq_true_eq, beq_iff_eq]
    omega
  have made : Integer.ofInt? n.val = some n := dif_pos ⟨n.lower, n.upper⟩
  refine ⟨fits, ?_⟩
  simp only [Number.ofSigned?, signed, made, if_neg nonzero]

/-- A printed integer is scanned, after its sign if it has one, where something closes behind it. -/
theorem scan_signedDigits (n : Integer) {rest : Text} (closes : Closes rest) :
    (∃ text, signedDigits n.val ++ rest = '-' :: text ∧
        scanNumber true text = .ok (.integer n, rest)) ∨
      ∃ c text, c.isDigit = true ∧ signedDigits n.val ++ rest = c :: text ∧
        scanNumber false (c :: text) = .ok (.integer n, rest) := by
  obtain ⟨fits, made⟩ := ofSigned?_natAbs n
  unfold signedDigits
  split_ifs with sign
  · rw [decide_eq_true sign] at made
    exact .inl ⟨digits n.val.natAbs ++ rest, rfl, scanNumber_digits closes fits made⟩
  · rw [decide_eq_false sign] at made
    obtain ⟨c, text, spelled⟩ := List.exists_cons_of_ne_nil (digits_ne_nil n.val.natAbs)
    have digit := isDigit_of_mem_digits n.val.natAbs c (by rw [spelled]; exact List.mem_cons_self ..)
    refine .inr ⟨c, text ++ rest, digit, by rw [spelled]; rfl, ?_⟩
    rw [← List.cons_append, ← spelled]
    exact scanNumber_digits closes fits made

end ApiSchema.Json
