import StreamQuery.Json.Reader
import StreamQuery.Json.Writer

/-! # Reading what was written

The reader inverts the writer: the text of a value is read as that value, whatever follows it, as
long as a numeral is not continued. Doubles are left out; strings hold any characters, and containers
lie inside one another as deep as the reader goes.
-/

set_option autoImplicit false

namespace StreamQuery.Json

/-! ## Strings -/

theorem hexValue?_digitChar :
    ∀ digit, digit < 16 → hexValue? (Nat.digitChar digit) = some digit := by
  decide

theorem unit?_hexDigits {code : Nat} (small : code < 256) :
    unit? '0' '0' (Nat.digitChar (code / 16 % 16)) (Nat.digitChar (code % 16)) = some code := by
  have zero : hexValue? '0' = some 0 := rfl
  have high := hexValue?_digitChar (code / 16 % 16) (Nat.mod_lt _ (by decide))
  have low := hexValue?_digitChar (code % 16) (Nat.mod_lt _ (by decide))
  have whole : code / 16 % 16 * 16 + code % 16 = code := by omega
  simp [unit?, zero, high, low, whole]

theorem readString?_escape (c : Char) (s : List Char) :
    readString? (escape c ++ s) =
      (readString? s).map fun (chars, after) => (c :: chars, after) := by
  unfold escape
  -- The seven characters with a short escape.
  iterate 7
    split
    · subst_vars
      rfl
  split
  · rename_i control
    have read := unit?_hexDigits (show c.toNat < 256 by omega)
    have notTrailing : isTrailing c.toNat = false := decide_eq_false (by omega)
    have notLeading : isLeading c.toNat = false := decide_eq_false (by omega)
    have same : Char.ofNat c.toNat = c := Char.ofNat_toNat c
    simp [hexDigits, readString?, read, notTrailing, notLeading, same]
  · rename_i notMark notSolidus _ _ _ _ _ visible
    rw [List.singleton_append, readString?]
    · rw [if_neg (by simp [notSolidus, visible])]
    · exact notMark
    · intro a b c d rest isSolidus
      exact absurd isSolidus notSolidus
    · intro d rest isSolidus
      exact absurd isSolidus notSolidus

theorem readString?_flatMap_escape (chars rest : List Char) :
    readString? (chars.flatMap escape ++ '"' :: rest) = some (chars, rest) := by
  induction chars with
  | nil => rfl
  | cons c chars ih =>
    rw [List.flatMap_cons, List.append_assoc, readString?_escape, ih, Option.map_some]

/-! ## Numerals -/

theorem le_ofDigitChars (digits : List Char) (start : Nat) :
    start ≤ Nat.ofDigitChars 10 digits start := by
  induction digits generalizing start with
  | nil => exact Nat.le_refl start
  | cons digit rest ih =>
    rw [Nat.ofDigitChars_cons]
    exact Nat.le_trans (by omega) (ih _)

theorem gather_eq {digits : List Char} {start : Nat}
    (fits : Nat.ofDigitChars 10 digits start ≤ significandLimit) :
    gather start digits = (Nat.ofDigitChars 10 digits start, 0) := by
  induction digits generalizing start with
  | nil => rfl
  | cons digit rest ih =>
    rw [Nat.ofDigitChars_cons, Nat.mul_comm] at fits ⊢
    have within : start * 10 + digitValue digit ≤ significandLimit :=
      Nat.le_trans (le_ofDigitChars rest _) fits
    rw [gather, if_pos within]
    exact ih fits

theorem toDigits_ne_zero_cons_cons (n : Nat) (c : Char) (rest : List Char) :
    Nat.toDigits 10 n ≠ '0' :: c :: rest := by
  -- On the number: without its last digit the numeral is that of a tenth of the number.
  induction n using Nat.strongRecOn generalizing c rest with
  | ind n ih =>
    by_cases small : n < 10
    · simp [Nat.toDigits_of_lt_base small]
    · rw [Nat.toDigits_of_base_le (by decide) (by omega)]
      intro equal
      cases front : Nat.toDigits 10 (n / 10) with
      | nil => exact Nat.toDigits_ne_nil front
      | cons first others =>
        rw [front, List.cons_append, List.cons.injEq] at equal
        obtain ⟨rfl, _⟩ := equal
        cases others with
        | nil =>
          have zero : n / 10 = 0 := by
            rw [← @Nat.ofDigitChars_ten_toDigits (n / 10), front]
            rfl
          omega
        | cons second others => exact ih (n / 10) (by omega) second others front

/-- Nothing that could continue a numeral stands at the start of the text. -/
def EndsNumeral (rest : List Char) : Prop :=
  ∀ c ∈ rest.head?, c.isDigit = false ∧ c ≠ '.' ∧ c ≠ 'e' ∧ c ≠ 'E'

theorem spanDigits_append {digits rest : List Char} (allDigits : ∀ c ∈ digits, c.isDigit = true)
    (ended : EndsNumeral rest) : spanDigits (digits ++ rest) = (digits, rest) := by
  unfold spanDigits
  rw [List.takeWhile_append_of_pos allDigits, List.dropWhile_append_of_pos allDigits]
  cases rest with
  | nil => simp
  | cons c rest => simp [(ended c rfl).1]

theorem readExponent?_eq {rest : List Char} (ended : EndsNumeral rest) :
    readExponent? rest = some (none, rest) := by
  cases rest with
  | nil => rfl
  | cons c rest =>
    obtain ⟨_, _, notMark, notCapital⟩ := ended c rfl
    simp only [readExponent?, notMark, notCapital, or_self, if_false]

theorem readFraction?_eq {rest : List Char} (ended : EndsNumeral rest) (negative : Bool)
    (significand : Nat) : readFraction? negative significand 0 rest =
      (wholeNumeral? negative significand).map fun number => (number, rest) := by
  have notPoint : ∀ after, rest ≠ '.' :: after := by
    rintro after rfl
    exact (ended '.' rfl).2.1 rfl
  rw [readFraction?, readExponent?_eq ended]
  · cases wholeNumeral? negative significand <;> rfl
  · exact notPoint

theorem readNumeral?_toDigits {n : Nat} (fits : n < UInt64.size) {rest : List Char}
    (ended : EndsNumeral rest) (negative : Bool) :
    readNumeral? negative (Nat.toDigits 10 n ++ rest) =
      (wholeNumeral? negative n).map fun number => (number, rest) := by
  have allDigits : ∀ c ∈ Nat.toDigits 10 n, c.isDigit = true := fun c isDigit =>
    Nat.isDigit_of_mem_toDigits (by decide) (by decide) isDigit
  have value : Nat.ofDigitChars 10 (Nat.toDigits 10 n) 0 = n := Nat.ofDigitChars_ten_toDigits
  have gathered : gather 0 (Nat.toDigits 10 n) = (n, 0) := by
    rw [gather_eq, value]
    rw [value]
    exact Nat.le_pred_of_lt fits
  rw [readNumeral?, spanDigits_append allDigits ended]
  split
  · rename_i equal
    exact absurd (congrArg Prod.fst equal) Nat.toDigits_ne_nil
  · rename_i equal
    exact absurd (congrArg Prod.fst equal) (toDigits_ne_zero_cons_cons n _ _)
  · rename_i equal
    cases equal
    rw [gathered]
    exact readFraction?_eq ended negative n

/-! ## Containers -/

def Visible (c : Char) : Prop :=
  c ≠ ' ' ∧ c ≠ '\t' ∧ c ≠ '\n' ∧ c ≠ '\r'

instance (c : Char) : Decidable (Visible c) :=
  inferInstanceAs (Decidable (c ≠ ' ' ∧ c ≠ '\t' ∧ c ≠ '\n' ∧ c ≠ '\r'))

theorem skipBlanks_cons {c : Char} (visible : Visible c) (rest : List Char) :
    skipBlanks (c :: rest) = c :: rest := by
  obtain ⟨notSpace, notTab, notFeed, notReturn⟩ := visible
  exact List.dropWhile_cons_of_neg (by simp [notSpace, notTab, notFeed, notReturn])

theorem length_le_length_intercalate (text : List Char) (texts : List (List Char)) :
    texts.length ≤ ([','].intercalate (text :: texts)).length := by
  induction texts generalizing text with
  | nil => exact Nat.zero_le _
  | cons next texts ih =>
    have shorter := ih next
    rw [List.intercalate_cons_cons]
    simp only [List.length_cons, List.length_append, List.length_nil]
    omega

section Separated

variable {α : Type} {item? : List Char → Option (α × List Char)} {write : α → List Char}
  {close : Char}

/-- What is written for an item is read as that item, in front of all that may follow it in a
container. -/
def ReadsBack (item? : List Char → Option (α × List Char)) (write : α → List Char) (close : Char)
    (item : α) : Prop :=
  ∀ mark rest, mark = ',' ∨ mark = close →
    item? (write item ++ mark :: rest) = some (item, mark :: rest)

theorem readSeparated?_intercalate (visible : Visible close) (notComma : close ≠ ',')
    {item : α} {items : List α} {count : Nat} (enough : items.length < count)
    (readsBack : ∀ a ∈ item :: items, ReadsBack item? write close a) (rest : List Char) :
    readSeparated? item? close count
      ([','].intercalate ((item :: items).map write) ++ close :: rest) =
        some (item :: items, rest) := by
  induction items generalizing item count with
  | nil =>
    cases count with
    | zero => cases enough
    | succ count =>
      have read := readsBack item List.mem_cons_self close rest (.inr rfl)
      rw [List.map_singleton, List.intercalate_singleton, readSeparated?]
      simp only [read, skipBlanks_cons visible, if_true]
  | cons next items ih =>
    cases count with
    | zero => cases enough
    | succ count =>
      have others := @ih next count (Nat.lt_of_succ_lt_succ enough)
        fun a isItem => readsBack a (List.mem_cons_of_mem item isItem)
      have comma : Visible ',' := by decide
      have read := readsBack item List.mem_cons_self ','
        ([','].intercalate ((next :: items).map write) ++ close :: rest) (.inl rfl)
      rw [List.map_cons, List.map_cons, List.intercalate_cons_cons, List.append_assoc,
        List.append_assoc, List.singleton_append, readSeparated?, ← List.map_cons]
      simp only [read, skipBlanks_cons comma, others, if_neg notComma.symm, if_true,
        Option.map_some]

theorem readContents?_intercalate (visible : Visible close) (notComma : close ≠ ',')
    {items : List α} (readsBack : ∀ item ∈ items, ReadsBack item? write close item)
    (starts : ∀ item ∈ items, ∃ c chars, write item = c :: chars ∧ c ≠ close ∧ Visible c)
    (rest : List Char) :
    readContents? item? close ([','].intercalate (items.map write) ++ close :: rest) =
      some (items, rest) := by
  unfold readContents?
  cases items with
  | nil => simp [skipBlanks_cons visible]
  | cons item items =>
    obtain ⟨c, chars, written, notClose, visibleStart⟩ := starts item List.mem_cons_self
    obtain ⟨after, whole⟩ :
        ∃ after, [','].intercalate ((item :: items).map write) = c :: after := by
      cases items with
      | nil => exact ⟨chars, by rw [List.map_singleton, List.intercalate_singleton, written]⟩
      | cons next items =>
        rw [List.map_cons, List.map_cons, List.intercalate_cons_cons, written]
        exact ⟨_, rfl⟩
    have count : items.length < (after ++ close :: rest).length + 1 := by
      have long := length_le_length_intercalate (write item) (items.map write)
      rw [← List.map_cons, whole] at long
      simp only [List.length_map, List.length_cons, List.length_append] at long ⊢
      omega
    have read := readSeparated?_intercalate visible notComma count readsBack rest
    rw [whole, List.cons_append] at read ⊢
    simp only [skipBlanks_cons visibleStart, if_neg notClose, read]

end Separated

/-! ## Values -/

/-- Values without doubles whose whole numbers fit into 64 bits and in which at most `depth`
containers lie inside one another. -/
inductive Plain : Nat → Value → Prop where
  | null {depth : Nat} : Plain depth .null
  | bool {depth : Nat} (value : Bool) : Plain depth (.bool value)
  | natural {depth n : Nat} (fits : n < UInt64.size) : Plain depth (.num (.int n))
  | negative {depth n : Nat} (positive : 0 < n) (fits : n ≤ 0x8000000000000000) :
      Plain depth (.num (.int (-n)))
  | str {depth : Nat} (value : String) : Plain depth (.str value)
  | arr {depth : Nat} {items : List Value} (plain : ∀ item ∈ items, Plain depth item) :
      Plain (depth + 1) (.arr items)
  | obj {depth : Nat} {members : List (String × Value)}
      (plain : ∀ member ∈ members, Plain depth member.2) : Plain (depth + 1) (.obj members)

theorem toList_text_natural (n : Nat) :
    (Value.num (.int n)).text.toList = Nat.toDigits 10 n := by
  rw [Value.text, Number.text, if_neg (by omega), Int.natAbs_natCast, Nat.toList_repr]

theorem toList_text_negative {n : Nat} (positive : 0 < n) :
    (Value.num (.int (-n))).text.toList = '-' :: Nat.toDigits 10 n := by
  rw [Value.text, Number.text, if_pos (by omega), Int.natAbs_neg, Int.natAbs_natCast,
    String.toList_append, Nat.toList_repr]
  rfl

theorem toList_text_arr (items : List Value) : (Value.arr items).text.toList =
    '[' :: ([','].intercalate (items.map fun item => item.text.toList) ++ [']']) := by
  simp [Value.text, Value.itemTexts_eq_map, Function.comp_def]

def writtenMember (member : String × Value) : List Char :=
  '"' :: (member.1.toList.flatMap escape ++ '"' :: ':' :: member.2.text.toList)

theorem toList_text_obj (members : List (String × Value)) : (Value.obj members).text.toList =
    '\x7b' :: ([','].intercalate (members.map writtenMember) ++ ['\x7d']) := by
  have written : (fun member : String × Value =>
      (quoted member.1 ++ ":" ++ member.2.text).toList) = writtenMember := by
    funext member
    simp [writtenMember]
  rw [← written]
  simp [Value.text, Value.memberTexts_eq_map, Function.comp_def]

theorem exists_toDigits_eq_cons (n : Nat) :
    ∃ c chars, Nat.toDigits 10 n = c :: chars ∧ c.isDigit = true := by
  obtain ⟨c, chars, equal⟩ := List.exists_cons_of_ne_nil (@Nat.toDigits_ne_nil n 10)
  have isMember : c ∈ Nat.toDigits 10 n := equal ▸ List.mem_cons_self
  exact ⟨c, chars, equal, Nat.isDigit_of_mem_toDigits (by decide) (by decide) isMember⟩

theorem ne_of_isDigit {c other : Char} (isDigit : c.isDigit = true)
    (notDigit : other.isDigit = false) : c ≠ other := by
  rintro rfl
  exact Bool.noConfusion (isDigit.symm.trans notDigit)

theorem visible_of_isDigit {c : Char} (isDigit : c.isDigit = true) : Visible c :=
  ⟨ne_of_isDigit isDigit rfl, ne_of_isDigit isDigit rfl, ne_of_isDigit isDigit rfl,
    ne_of_isDigit isDigit rfl⟩

theorem readValue?_digit {c : Char} (isDigit : c.isDigit = true) (depth : Nat) (rest : List Char) :
    readValue? depth (c :: rest) =
      (readNumeral? false (c :: rest)).map fun (number, after) => (.num number, after) := by
  rw [readValue?.eq_def]
  simp only [skipBlanks_cons (visible_of_isDigit isDigit)]
  split
  case h_8 => rfl
  all_goals
    rename_i equal
    exact absurd (List.cons.inj equal).1 (ne_of_isDigit isDigit rfl)

theorem exists_text_eq_cons {depth : Nat} {value : Value} (plain : Plain depth value) :
    ∃ c chars, value.text.toList = c :: chars ∧ c ≠ ']' ∧ Visible c := by
  cases plain with
  | null => exact ⟨'n', _, rfl, by decide, by decide⟩
  | bool value =>
    cases value with
    | true => exact ⟨'t', _, rfl, by decide, by decide⟩
    | false => exact ⟨'f', _, rfl, by decide, by decide⟩
  | natural fits =>
    obtain ⟨c, chars, equal, isDigit⟩ := exists_toDigits_eq_cons _
    exact ⟨c, chars, (toList_text_natural _).trans equal, ne_of_isDigit isDigit rfl,
      visible_of_isDigit isDigit⟩
  | negative positive fits =>
    exact ⟨'-', _, toList_text_negative positive, by decide, by decide⟩
  | str value =>
    exact ⟨'"', _, toList_quoted value, by decide, by decide⟩
  | arr plain => exact ⟨'[', _, toList_text_arr _, by decide, by decide⟩
  | obj plain => exact ⟨'\x7b', _, toList_text_obj _, by decide, by decide⟩

theorem endsNumeral_cons {mark : Char} (delimits : mark = ',' ∨ mark = ']' ∨ mark = '\x7d')
    (rest : List Char) : EndsNumeral (mark :: rest) := by
  intro c isFirst
  cases isFirst
  rcases delimits with rfl | rfl | rfl
  · decide
  · decide
  · decide

theorem readMember?_writtenMember {value? : List Char → Option (Value × List Char)}
    {member : String × Value} {rest : List Char}
    (read : value? (member.2.text.toList ++ rest) = some (member.2, rest)) :
    readMember? value? (writtenMember member ++ rest) = some (member, rest) := by
  have quotation : Visible '"' := by decide
  have colon : Visible ':' := by decide
  have key := readString?_flatMap_escape member.1.toList (':' :: (member.2.text.toList ++ rest))
  rw [readMember?, writtenMember, List.cons_append, List.append_assoc, skipBlanks_cons quotation]
  simp only [List.cons_append, key, skipBlanks_cons colon, read, Option.map_some,
    String.ofList_toList]

theorem readValue?_text {depth : Nat} {value : Value} (plain : Plain depth value)
    {rest : List Char} (ended : EndsNumeral rest) :
    readValue? depth (value.text.toList ++ rest) = some (value, rest) := by
  induction plain generalizing rest with
  | null =>
    rw [readValue?.eq_def]
    rfl
  | bool value =>
    rw [readValue?.eq_def]
    cases value with
    | true => rfl
    | false => rfl
  | @natural depth n fits =>
    obtain ⟨c, chars, equal, isDigit⟩ := exists_toDigits_eq_cons n
    have read := readNumeral?_toDigits fits ended false
    rw [equal, List.cons_append] at read
    rw [toList_text_natural, equal, List.cons_append, readValue?_digit isDigit, read]
    rfl
  | @negative depth n positive fits =>
    have small : n < UInt64.size := Nat.lt_of_le_of_lt fits (by decide)
    have minus : Visible '-' := by decide
    rw [toList_text_negative positive, List.cons_append, readValue?.eq_def]
    simp only [skipBlanks_cons minus, readNumeral?_toDigits small ended, wholeNumeral?, if_true,
      if_pos (And.intro positive fits), Option.map_some]
  | str value =>
    have quotation : Visible '"' := by decide
    rw [Value.text, toList_quoted, List.cons_append, List.append_assoc, List.singleton_append,
      readValue?.eq_def]
    simp only [skipBlanks_cons quotation, readString?_flatMap_escape, Option.map_some,
      String.ofList_toList]
  | @arr depth items plain ih =>
    have bracket : Visible '[' := by decide
    have readsBack : ∀ item ∈ items,
        ReadsBack (fun s => readValue? depth s) (fun item => item.text.toList) ']' item := by
      intro item isItem mark rest follows
      exact ih item isItem (endsNumeral_cons (follows.imp_right Or.inl) rest)
    have starts := fun item isItem => exists_text_eq_cons (plain item isItem)
    have read := readContents?_intercalate (by decide) (by decide) readsBack starts rest
    rw [toList_text_arr, List.cons_append, List.append_assoc, List.singleton_append,
      readValue?.eq_def]
    simp only [skipBlanks_cons bracket, read, Option.map_some]
  | @obj depth members plain ih =>
    have brace : Visible '\x7b' := by decide
    have readsBack : ∀ member ∈ members,
        ReadsBack (readMember? fun s => readValue? depth s) writtenMember '\x7d' member := by
      intro member isMember mark rest follows
      exact readMember?_writtenMember
        (ih member isMember (endsNumeral_cons (follows.imp_right Or.inr) rest))
    have starts : ∀ member ∈ members, ∃ c chars, writtenMember member = c :: chars ∧
        c ≠ '\x7d' ∧ Visible c :=
      fun member _ => ⟨'"', _, rfl, by decide, by decide⟩
    have read := readContents?_intercalate (by decide) (by decide) readsBack starts rest
    rw [toList_text_obj, List.cons_append, List.append_assoc, List.singleton_append,
      readValue?.eq_def]
    simp only [skipBlanks_cons brace, read, Option.map_some]

theorem readObject?_text {members : List (String × Value)}
    (plain : Plain depthLimit (.obj members)) :
    readObject? (Value.obj members).text = some (members, []) := by
  rw [readObject?_eq_some_iff, ← List.append_nil (Value.text _).toList]
  exact readValue?_text plain nofun

end StreamQuery.Json
