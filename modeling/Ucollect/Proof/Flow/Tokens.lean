import Ucollect.Construction.Master.FlowFilter

/-
This file proves which tokens the server finds in the texts of filters.
-/

namespace Ucollect.Master
open Library Flow List Option

/-- The byte may be in a name. -/
def Free (byte : UInt8) : Prop := isSpace byte = false ∧ isSeparator byte = false

/-- The token is found again as it is. -/
def Plain (token : Bytes) : Prop := token ≠ [] ∧ ∀ byte ∈ token, Free byte

/-- The tokenizer drops nothing of such a text. -/
def Unspaced (text : Bytes) : Prop := ∀ byte ∈ text, isSpace byte = false

/-- A list may start behind its parenthesis or with it. -/
def Opening (opening : Bytes) : Prop := opening = [] ∨ opening = [letter '(']

section Tokens

variable {tok text rest opening first second : Bytes} {separator byte : UInt8}

theorem Unspaced.append (one : Unspaced first) (two : Unspaced second) :
    Unspaced (first ++ second) :=
  forall_mem_append.mpr ⟨one, two⟩

theorem Unspaced.cons (one : isSpace byte = false) (two : Unspaced text) : Unspaced (byte :: text) :=
  forall_mem_cons.mpr ⟨one, two⟩

theorem Unspaced.nil : Unspaced [] := forall_mem_nil _

theorem Plain.unspaced (plain : Plain tok) : Unspaced tok := fun byte member =>
  (plain.2 byte member).1

/-- No separator is white space. -/
theorem isSpace_separator (separates : isSeparator separator = true) :
    isSpace separator = false := by
  simp only [isSeparator, decide_eq_true_eq] at separates
  rcases separates with rfl | rfl | rfl <;> decide

/-- There is nothing to strip in front. -/
theorem dropWhile_unspaced (unspaced : Unspaced text) : text.dropWhile isSpace = text := by
  cases text with
  | nil => rfl
  | cons byte text =>
    rw [dropWhile_cons_of_neg]
    simp [unspaced byte mem_cons_self]

/-- The whole text is one line. -/
theorem takeWhile_unspaced (unspaced : Unspaced text) : text.takeWhile (· ≠ newline) = text := by
  rw [takeWhile_eq_self_iff]
  intro byte member
  have space := unspaced byte member
  rw [decide_eq_true_eq]
  rintro rfl
  exact absurd space (by decide)

/-- A token ends at the first separator behind it. -/
theorem matchToken_free (free : ∀ byte ∈ tok, Free byte) (separates : isSeparator separator = true)
    (unspaced : Unspaced rest) :
    matchToken (tok ++ separator :: rest) = some ⟨tok, separator, rest⟩ := by
  induction tok with
  | nil =>
    have space := isSpace_separator separates
    simp only [nil_append, matchToken, matchEnd]
    rw [dropWhile_cons_of_neg (by simp [space])]
    simp only [separates, if_true, takeWhile_unspaced unspaced]
  | cons byte tok ih =>
    obtain ⟨here, others⟩ := forall_mem_cons.mp free
    have line : byte ≠ newline := by
      rintro rfl
      exact absurd here.1 (by decide)
    have none' : matchEnd (byte :: (tok ++ separator :: rest)) = none := by
      rw [matchEnd, dropWhile_cons_of_neg (by simp [here.1])]
      simp [here.2]
    rw [cons_append, matchToken, none']
    simp only [if_neg line, ih others, map_some]

/-- The token ends with its separator, and a parenthesis in front of it is skipped. -/
theorem token_found (opened : Opening opening) (free : ∀ byte ∈ tok, Free byte)
    (separates : isSeparator separator = true) (clear : tok ≠ [] ∨ separator ≠ letter '(')
    (unspaced : Unspaced rest) :
    token (opening ++ (tok ++ separator :: rest)) = some ⟨tok, separator, rest⟩ := by
  have found := matchToken_free free separates unspaced
  have text : Unspaced (tok ++ separator :: rest) :=
    .append (fun byte member => (free byte member).1)
      (.cons (isSpace_separator separates) unspaced)
  rcases opened with rfl | rfl
  · have head : ∀ rest', tok ++ separator :: rest ≠ letter '(' :: rest' := by
      intro rest' same
      cases tok with
      | nil => exact clear.elim (fun some => some rfl) fun other => other (List.cons.inj same).1
      | cons byte tok =>
        have open' := (free byte mem_cons_self).2
        rw [(List.cons.inj same).1] at open'
        exact absurd open' (by decide)
    unfold token
    rw [nil_append, dropWhile_unspaced text, found]
    cases shape : tok ++ separator :: rest with
    | nil => rfl
    | cons byte behind =>
      have other : byte ≠ letter '(' := fun same => head behind (same ▸ shape)
      simp only [if_neg other]
  · unfold token
    simp only [singleton_append, if_true, dropWhile_unspaced text, found]

end Tokens

section Values

variable {values : List Bytes} {rest opening : Bytes}

@[simp] theorem commas_nil : commas [] = [] := rfl

@[simp] theorem commas_singleton (value : Bytes) : commas [value] = value := by
  simp [commas]

theorem commas_cons_cons (value other : Bytes) (values : List Bytes) :
    commas (value :: other :: values) = value ++ letter ',' :: commas (other :: values) := by
  simp [commas, List.intercalate]

/-- Values without white space stay so behind each other. -/
theorem commas_unspaced (unspaced : ∀ value ∈ values, Unspaced value) : Unspaced (commas values) := by
  induction values with
  | nil => exact .nil
  | cons value values ih =>
    obtain ⟨here, others⟩ := forall_mem_cons.mp unspaced
    cases values with
    | nil => rwa [commas_singleton]
    | cons other values =>
      rw [commas_cons_cons]
      exact here.append (.cons (by decide) (ih others))

/-- The values of a list are found, up to the parenthesis that ends it. -/
theorem getValues_commas (plain : ∀ value ∈ values, Plain value) (opened : Opening opening)
    (unspaced : Unspaced rest) {fuel : Nat} (enough : (commas values).length < fuel) :
    getValues fuel (opening ++ (commas values ++ letter ')' :: rest)) = (values, rest) := by
  induction values generalizing opening fuel with
  | nil =>
    obtain ⟨fuel, rfl⟩ := Nat.exists_eq_add_of_lt enough
    have found : token (opening ++ ([] ++ letter ')' :: rest)) = some ⟨[], letter ')', rest⟩ :=
      token_found opened (forall_mem_nil _) (by decide) (Or.inr (by decide)) unspaced
    rw [commas_nil, getValues, found]
    rfl
  | cons value values ih =>
    obtain ⟨here, others⟩ := forall_mem_cons.mp plain
    cases values with
    | nil =>
      rw [commas_singleton] at enough ⊢
      obtain ⟨fuel, rfl⟩ := Nat.exists_eq_add_of_lt enough
      rw [getValues, token_found opened here.2 (by decide) (Or.inl here.1) unspaced]
      simp [here.1]
    | cons other values =>
      have behind : Unspaced (commas (other :: values) ++ letter ')' :: rest) :=
        (commas_unspaced fun value member => (others value member).unspaced).append
          (.cons (by decide) unspaced)
      rw [commas_cons_cons, length_append, length_cons] at enough
      obtain ⟨fuel, rfl⟩ : ∃ less, fuel = less + 1 := ⟨fuel - 1, by omega⟩
      have next := ih others (Or.inl rfl) (show _ < fuel by omega)
      rw [nil_append] at next
      rw [commas_cons_cons, append_assoc, cons_append, getValues,
        token_found opened here.2 (by decide) (Or.inl here.1) behind]
      simp only [next, here.1, ne_eq, not_false_eq_true, if_true,
        show letter ',' ≠ letter ')' by decide, singleton_append]

end Values

section Numbers

theorem digit_small {char : Char} (digit : char.isDigit = true) : char.toNat < 58 := by
  have bounds := (Char.isDigit_iff_toNat.mp digit).2
  exact Nat.lt_succ_of_le bounds

theorem digit_large {char : Char} (digit : char.isDigit = true) : 48 ≤ char.toNat :=
  (Char.isDigit_iff_toNat.mp digit).1

/-- The decimal digits of a number are digits. -/
theorem isDigit_toDigits {number : Nat} {char : Char} (member : char ∈ Nat.toDigits 10 number) :
    char.isDigit = true :=
  Nat.isDigit_of_mem_toDigits (by decide) (by decide) member

theorem asText_digits (number : Nat) :
    asText ((Nat.toDigits 10 number).map fun char => char.toNat.toUInt8) = Nat.toDigits 10 number := by
  rw [asText, List.map_map]
  conv_rhs => rw [← List.map_id (Nat.toDigits 10 number)]
  rw [map_inj_left]
  intro char member
  have small := digit_small (isDigit_toDigits member)
  simp [Nat.mod_eq_of_lt (show char.toNat < 256 by omega)]

/-- A number has no white space to strip. -/
theorem stripText_digits {text : Text} (all : ∀ char ∈ text, char.isDigit = true) :
    stripText Char.isWhitespace text = text := by
  have keep : ∀ chars : Text, (∀ char ∈ chars, char.isDigit = true) →
      chars.dropWhile Char.isWhitespace = chars := by
    intro chars digits
    cases chars with
    | nil => rfl
    | cons char chars =>
      have large := digit_large (digits char mem_cons_self)
      rw [dropWhile_cons_of_neg]
      simp only [Char.isWhitespace, Bool.or_eq_true, decide_eq_true_eq, not_or]
      refine ⟨⟨⟨?_, ?_⟩, ?_⟩, ?_⟩ <;>
        (intro same; subst same; exact absurd large (by decide))
  rw [stripText, keep text all, keep text.reverse fun char member =>
    all char (mem_reverse.mp member), reverse_reverse]

/-- The digits are read with the value of the digits before them. -/
theorem foldlM_digits (text : Text) (all : ∀ char ∈ text, char.isDigit = true) (value : Nat) :
    text.foldlM (fun value char =>
        if char.isDigit then some (10 * value + (char.toNat - '0'.toNat)) else none) value =
      some (Nat.ofDigitChars 10 text value) := by
  induction text generalizing value with
  | nil => simp
  | cons char text ih =>
    obtain ⟨here, others⟩ := forall_mem_cons.mp all
    rw [foldlM_cons, if_pos here, Nat.ofDigitChars_cons]
    exact ih others _

/-- The number is read back from its digits. -/
theorem intText_digits (number : Nat) : intText (Nat.toDigits 10 number) = some (number : Int) := by
  have all : ∀ char ∈ Nat.toDigits 10 number, char.isDigit = true := fun char => isDigit_toDigits
  have value : digits (Nat.toDigits 10 number) = some number := by
    rw [digits, if_neg Nat.toDigits_ne_nil, foldlM_digits _ all, Nat.ofDigitChars_ten_toDigits]
  unfold intText
  rw [stripText_digits all]
  split
  · next rest shape =>
      have digit := all '-' (shape ▸ mem_cons_self)
      exact absurd digit (by decide)
  · next rest shape =>
      have digit := all '+' (shape ▸ mem_cons_self)
      exact absurd digit (by decide)
  · rw [value]
    rfl

/-- A natural number is written without a sign. -/
theorem strInt_nat (number : Nat) :
    strInt number = (Nat.toDigits 10 number).map fun char => char.toNat.toUInt8 := by
  have notLess : ¬(number : Int) < 0 := by omega
  rw [strInt, if_neg notLess, nil_append, Int.natAbs_natCast]

/-- A number that was written is read back. -/
theorem intText_strInt {value : Int} (natural : 0 ≤ value) :
    intText (asText (strInt value)) = some value := by
  lift value to Nat using natural
  rw [strInt_nat, asText_digits, intText_digits]

/-- A digit is no separator. -/
theorem free_digit {byte : UInt8} (large : 48 ≤ byte.toNat) (small : byte.toNat < 58) :
    Free byte := by
  have every : ∀ number ∈ List.range 58, 48 ≤ number → Free (UInt8.ofNat number) := by
    unfold Free
    decide
  have found := every byte.toNat (mem_range.mpr small) large
  rwa [UInt8.ofNat_toNat] at found

/-- A written number is a token. -/
theorem strInt_plain {value : Int} (natural : 0 ≤ value) : Plain (strInt value) := by
  lift value to Nat using natural
  rw [strInt_nat]
  refine ⟨by simp, ?_⟩
  intro byte member
  obtain ⟨char, known, rfl⟩ := List.mem_map.mp member
  have large := digit_large (isDigit_toDigits known)
  have small := digit_small (isDigit_toDigits known)
  have same : char.toNat.toUInt8.toNat = char.toNat := by
    rw [Nat.toUInt8_eq, UInt8.toNat_ofNat', Nat.mod_eq_of_lt (show char.toNat < 2 ^ 8 by omega)]
  exact free_digit (by omega) (by omega)

end Numbers

end Ucollect.Master
