import Mathlib
import PacketSections.Json.Draft

/-!
A rendered document is read back.

The reader takes the text of a document off the head of a longer text and returns a draft that shows
the document. What follows may not go on with a number, which the closing characters of lists and
objects do not.
-/

namespace PacketSections.Json

/-- A text that can follow a value inside of a document, or nothing. -/
def Closes (rest : List Char) : Prop := ∀ c ∈ rest.head?, c = ',' ∨ c = ']' ∨ c = '}'

lemma closes_nil : Closes [] := by simp [Closes]

lemma closes_comma (rest : List Char) : Closes (',' :: rest) := by simp [Closes]

lemma closes_bracket (rest : List Char) : Closes (']' :: rest) := by simp [Closes]

lemma closes_brace (rest : List Char) : Closes ('}' :: rest) := by simp [Closes]

/-! ### Numbers -/

lemma digits_isDigit {n : ℕ} {c : Char} (h : c ∈ Nat.toDigits 10 n) : c.isDigit = true :=
  Nat.isDigit_of_mem_toDigits (by omega) (by omega) h

/-- A number above zero has no leading zero. -/
lemma head?_digits_ne_zero {n : ℕ} (h : 0 < n) : (Nat.toDigits 10 n).head? ≠ some '0' := by
  induction n using Nat.strong_induction_on with
  | _ n ih =>
    rcases Nat.lt_or_ge n 10 with hlt | hge
    · rw [Nat.toDigits_of_lt_base hlt]
      interval_cases n <;> decide
    · rw [Nat.toDigits_of_base_le (by omega) hge, List.head?_append_of_ne_nil _ Nat.toDigits_ne_nil]
      exact ih (n / 10) (by omega) (by omega)

lemma foldl_digits (n : ℕ) :
    ((Nat.toDigits 10 n).map digit).foldl (fun k d => k * 10 + d) 0 = n := by
  have h := Nat.ofDigitChars_ten_toDigits (n := n)
  rw [Nat.ofDigitChars] at h
  rw [List.foldl_map]
  simpa [digit, Nat.mul_comm] using h

lemma le_foldl_digits (k : ℕ) (ds : List ℕ) : k ≤ ds.foldl (fun k d => k * 10 + d) k := by
  induction ds generalizing k with
  | nil => simp
  | cons d ds ih =>
    have := ih (k * 10 + d)
    simp only [List.foldl_cons]
    omega

/-- Digits whose value stays below the bound are all taken. -/
lemma accumulate_eq {bound k : ℕ} {ds : List ℕ}
    (h : ds.foldl (fun k d => k * 10 + d) k < bound) :
    Numeral.accumulate bound k ds = (ds.foldl (fun k d => k * 10 + d) k, []) := by
  induction ds generalizing k with
  | nil => rfl
  | cons d ds ih =>
    have hle := le_foldl_digits (k * 10 + d) ds
    simp only [List.foldl_cons] at h ⊢
    rw [Numeral.accumulate, if_pos (by omega), ih h]

/-- What is taken off the front ends where the text goes on with something else. -/
lemma takeWhile_of_head {p : Char → Bool} {as rest : List Char} (ha : ∀ c ∈ as, p c = true)
    (hr : ∀ c ∈ rest.head?, p c = false) :
    (as ++ rest).takeWhile p = as ∧ (as ++ rest).dropWhile p = rest := by
  have hrest : rest.takeWhile p = [] ∧ rest.dropWhile p = rest := by
    cases rest with
    | nil => simp
    | cons c cs => simp [hr c rfl]
  rw [List.takeWhile_append_of_pos ha, List.dropWhile_append_of_pos ha, hrest.1, hrest.2]
  simp

lemma takeWhile_digits {ds rest : List Char} (hd : ∀ c ∈ ds, c.isDigit = true)
    (hr : Closes rest) :
    (ds ++ rest).takeWhile Char.isDigit = ds ∧ (ds ++ rest).dropWhile Char.isDigit = rest := by
  refine takeWhile_of_head hd fun c hc => ?_
  rcases hr c hc with rfl | rfl | rfl <;> decide

/-- The numeral of a natural number. -/
def numeral (n : ℕ) : Numeral := { below := false, whole := (Nat.toDigits 10 n).map digit }

lemma scanWhole_digits (n : ℕ) {rest : List Char} (hr : Closes rest) :
    scanWhole (Nat.toDigits 10 n ++ rest) = .ok ((Nat.toDigits 10 n).map digit, rest) := by
  rcases Nat.eq_zero_or_pos n with rfl | hn
  · cases rest with
    | nil => rfl
    | cons c cs =>
      have : c.isDigit = false := by
        rcases hr c (by simp) with rfl | rfl | rfl <;> decide
      simp [scanWhole, this, digit]
  · have hz := head?_digits_ne_zero hn
    have hd := fun c => digits_isDigit (n := n) (c := c)
    obtain ⟨c, cs, hc⟩ := List.exists_cons_of_ne_nil (Nat.toDigits_ne_nil (b := 10) (n := n))
    have htake := takeWhile_digits hd hr
    rw [hc] at hz hd htake ⊢
    have hne : c ≠ '0' := by simpa using hz
    have hcd : c.isDigit = true := hd c (by simp)
    rw [List.cons_append, scanWhole]
    · simp only [hcd, if_true, scanDigits]
      rw [← List.cons_append, htake.1, htake.2]
    · simpa using hne

lemma scanNumeral_digits (n : ℕ) {rest : List Char} (hr : Closes rest) :
    scanNumeral false (Nat.toDigits 10 n ++ rest) = .ok (numeral n, rest) := by
  have hf : scanFraction rest = .ok (false, [], rest) := by
    unfold scanFraction
    split
    · next cs => simpa using hr '.' (by simp)
    · rfl
  have he : scanExponent rest = .ok (none, rest) := by
    cases rest with
    | nil => rfl
    | cons c cs =>
      rcases hr c (by simp) with rfl | rfl | rfl <;> simp [scanExponent]
  simp [scanNumeral, scanWhole_digits n hr, hf, he, numeral, bind, Except.bind, pure, Except.pure]

lemma numeral_value (n : UInt64) : (numeral n.toNat).value = .ok (.natural n) := by
  have hlt : n.toNat < Nat.pow 2 64 := n.toNat_lt
  rw [← foldl_digits n.toNat] at hlt
  have hacc := accumulate_eq hlt
  rw [foldl_digits] at hacc
  simp [Numeral.value, Numeral.integer?, numeral, hacc]

lemma readNumber_digits (n : UInt64) (head : Char) {rest : List Char} (hr : Closes rest) :
    Draft.readNumber false head (Nat.toDigits 10 n.toNat ++ rest) =
      (.number (.ok (.natural n)), some rest) := by
  simp [Draft.readNumber, scanNumeral_digits _ hr, numeral_value]

/-! ### Strings -/

lemma hexValue?_digitChar {d : ℕ} (h : d < 16) : hexValue? (Nat.digitChar d) = some d := by
  interval_cases d <;> decide

/-- A quoted character is scanned as the character. -/
lemma scanString_quoteChar (c : Char) (done rest : List Char) :
    scanString true .plain done (Document.quoteChar c ++ rest) =
      scanString true .plain (c :: done) rest := by
  unfold Document.quoteChar
  split_ifs with h1 h2 h3 h4 h5 h6 h7 h8
  · subst h1; simp [scanString, escaped?]
  · subst h2; simp [scanString, escaped?]
  · subst h3; simp [scanString, escaped?]
  · subst h4; simp [scanString, escaped?]
  · subst h5; simp [scanString, escaped?]
  · subst h6; simp [scanString, escaped?]
  · subst h7; simp [scanString, escaped?]
  · -- four hexadecimal digits, the first two of which are zero
    have hhi := hexValue?_digitChar (d := c.toNat / 16) (by omega)
    have hlo := hexValue?_digitChar (d := c.toNat % 16) (by omega)
    have hz : hexValue? '0' = some 0 := by decide
    have hv : c.toNat / 16 * 16 + c.toNat % 16 = c.toNat := by omega
    have hclose : closeHex true c.toNat none = .ok (.plain, [c]) := by
      rw [closeHex, Char.ofNat_toNat]
      have : ¬ (0xDC00 ≤ c.toNat ∧ c.toNat ≤ 0xDFFF) := by omega
      have : ¬ (0xD800 ≤ c.toNat ∧ c.toNat ≤ 0xDBFF) := by omega
      simp [*]
    simp [scanString, Document.hexPair, hz, hhi, hlo, hv, hclose]
  · simp [scanString, h1, h2, h8]

lemma scanString_quoted (cs done rest : List Char) :
    scanString true .plain done (cs.flatMap Document.quoteChar ++ '"' :: rest) =
      .ok (String.ofList (done.reverse ++ cs), rest) := by
  induction cs generalizing done with
  | nil => simp [scanString]
  | cons c cs ih =>
    rw [List.flatMap_cons, List.append_assoc, scanString_quoteChar, ih]
    simp

/-- A quoted string, whose opening quote has been read, is read back. -/
lemma readString_quoted (s : String) (rest : List Char) :
    Draft.readString (s.toList.flatMap Document.quoteChar ++ '"' :: rest) =
      (.string (.ok s), some rest) := by
  simp [Draft.readString, scanString_quoted]

/-! ### Values -/

mutual

/-- The draft is complete, and it is the document. -/
inductive Shows : Draft → Document → Prop
  | null : Shows .null .null
  | bool (b : Bool) : Shows (.bool b) (.bool b)
  | number (n : Number) : Shows (.number (.ok n)) (.number n)
  | string (s : String) : Shows (.string (.ok s)) (.string s)
  | array {after : List Char} {xs : List Draft} {ds : List Document} (h : ShowsItems xs ds) :
    Shows (.array after xs none) (.array ds)
  | object {after : List Char} {xs : List (Name × Draft)} {ms : List (String × Document)}
    (h : ShowsMembers xs ms) : Shows (.object after xs none) (.object ms)

inductive ShowsItems : List Draft → List Document → Prop
  | nil : ShowsItems [] []
  | cons {x : Draft} {d : Document} {xs : List Draft} {ds : List Document} (h : Shows x d)
    (hs : ShowsItems xs ds) : ShowsItems (x :: xs) (d :: ds)

inductive ShowsMembers : List (Name × Draft) → List (String × Document) → Prop
  | nil : ShowsMembers [] []
  | cons {name : Name} {k : String} {x : Draft} {d : Document} {xs : List (Name × Draft)}
    {ms : List (String × Document)} (hk : name.reading = .ok k) (h : Shows x d)
    (hs : ShowsMembers xs ms) : ShowsMembers ((name, x) :: xs) ((k, d) :: ms)

end

namespace Document

mutual

/-- All numbers of the document are natural. -/
def Counting : Document → Prop
  | number n => ∃ k, n = .natural k
  | array items => CountingItems items
  | object members => CountingMembers members
  | _ => True

def CountingItems : List Document → Prop
  | [] => True
  | d :: ds => Counting d ∧ CountingItems ds

def CountingMembers : List (String × Document) → Prop
  | [] => True
  | (_, d) :: ms => Counting d ∧ CountingMembers ms

end

end Document

lemma isDigit_head {n : ℕ} : ∃ c cs, Nat.toDigits 10 n = c :: cs ∧ c.isDigit = true := by
  obtain ⟨c, cs, hc⟩ := List.exists_cons_of_ne_nil (Nat.toDigits_ne_nil (b := 10) (n := n))
  exact ⟨c, cs, hc, digits_isDigit (n := n) (by simp [hc])⟩

/-- The first character of a rendered document is no blank and closes nothing. -/
lemma head_chars (d : Document) (hd : d.Counting) :
    ∃ c cs, d.chars = c :: cs ∧ isBlank c = false ∧ c ≠ ']' ∧ c ≠ '}' ∧ c ≠ ',' := by
  cases d with
  | null => exact ⟨_, _, rfl, by decide⟩
  | bool b => cases b <;> exact ⟨_, _, rfl, by decide⟩
  | string s => exact ⟨_, _, rfl, by decide⟩
  | array items => exact ⟨_, _, rfl, by decide⟩
  | object members => exact ⟨_, _, rfl, by decide⟩
  | number n =>
    obtain ⟨k, rfl⟩ := hd
    obtain ⟨c, cs, hc, hdig⟩ := isDigit_head (n := k.toNat)
    refine ⟨c, cs, by simp [Document.chars, Number.text, hc], ?_⟩
    have hne : ∀ x : Char, x.isDigit = false → c ≠ x := by
      rintro x hx rfl
      simp [hdig] at hx
    simp only [isBlank, Bool.or_eq_false_iff, beq_eq_false_iff_ne]
    exact ⟨⟨⟨⟨hne _ (by decide), hne _ (by decide)⟩, hne _ (by decide)⟩, hne _ (by decide)⟩,
      hne _ (by decide), hne _ (by decide), hne _ (by decide)⟩

lemma skipBlanks_cons {c : Char} {cs : List Char} (h : isBlank c = false) :
    skipBlanks (c :: cs) = c :: cs := by
  simp [skipBlanks, h]

/-- The characters that structure a document are no blanks. -/
@[simp] lemma skipBlanks_mark {c : Char} {cs : List Char}
    (h : c ∈ [',', ':', '"', '[', ']', '{', '}', 'n', 't', 'f']) :
    skipBlanks (c :: cs) = c :: cs := by
  refine skipBlanks_cons ?_
  simp only [List.mem_cons, List.not_mem_nil, or_false] at h
  rcases h with rfl | rfl | rfl | rfl | rfl | rfl | rfl | rfl | rfl | rfl <;> decide

lemma head_itemChars {d : Document} (ds : List Document) (hd : d.Counting) :
    ∃ c cs, Document.itemChars (d :: ds) = c :: cs ∧ isBlank c = false ∧ c ≠ ']' := by
  obtain ⟨c, cs, hc, hb, hne, -, -⟩ := head_chars d hd
  cases ds with
  | nil => exact ⟨c, cs, by rw [Document.itemChars, hc], hb, hne⟩
  | cons e es => exact ⟨c, _, by rw [Document.itemChars, hc, List.cons_append], hb, hne⟩

lemma memberChars_cons (k : String) (d : Document) (ms : List (String × Document)) :
    Document.memberChars ((k, d) :: ms) =
      '"' :: (k.toList.flatMap Document.quoteChar ++ '"' :: ':' :: (d.chars ++ match ms with
        | [] => []
        | m :: ms => ',' :: Document.memberChars (m :: ms))) := by
  cases ms <;> simp [Document.memberChars, Document.quote]

lemma readName_quoted (k : String) (rest : List Char) :
    Draft.readName (k.toList.flatMap Document.quoteChar ++ '"' :: rest) =
      (⟨.ok k, none⟩, some rest) := by
  simp [Draft.readName, readString_quoted]

lemma readValue_number (k : UInt64) (n : ℕ) {rest : List Char} (hr : Closes rest) :
    Draft.readValue (n + 1) ((Document.number (.natural k)).chars ++ rest) =
      (.number (.ok (.natural k)), some rest) := by
  obtain ⟨c, cs, hc, hdig⟩ := isDigit_head (n := k.toNat)
  have hne : ∀ x : Char, x.isDigit = false → c ≠ x := by
    rintro x hx rfl
    simp [hdig] at hx
  have hb : isBlank c = false := by
    simp [isBlank, hne ' ' (by decide), hne '\n' (by decide), hne '\t' (by decide),
      hne '\r' (by decide)]
  have hread := readNumber_digits k c hr
  rw [hc] at hread
  simp only [Document.chars, Number.text, String.toList_ofList, hc, List.cons_append]
  rw [Draft.readValue, skipBlanks_cons hb]
  simpa [hne '"' (by decide), hne '{' (by decide), hne '[' (by decide), hne '-' (by decide), hdig]
    using hread

mutual

/-- A rendered document is read off the head of a text. Each character pays for three calls. -/
lemma readValue_chars (d : Document) (hd : d.Counting) (n : ℕ) (hn : 3 * d.chars.length ≤ n)
    (rest : List Char) (hr : Closes rest) :
    ∃ x, Draft.readValue n (d.chars ++ rest) = (x, some rest) ∧ Shows x d := by
  obtain ⟨c, cs, hc, -⟩ := head_chars d hd
  obtain ⟨n, rfl⟩ : ∃ m, n = m + 1 := ⟨n - 1, by rw [hc] at hn; simp at hn; omega⟩
  match d with
  | .null =>
    exact ⟨_, by simp [Document.chars, Draft.readValue, Draft.readWord, scanWord], .null⟩
  | .bool true =>
    exact ⟨_, by simp [Document.chars, Draft.readValue, Draft.readWord, scanWord],
      .bool true⟩
  | .bool false =>
    exact ⟨_, by simp [Document.chars, Draft.readValue, Draft.readWord, scanWord],
      .bool false⟩
  | .number k =>
    obtain ⟨k, rfl⟩ := hd
    exact ⟨_, readValue_number k n hr, .number _⟩
  | .string s =>
    refine ⟨_, ?_, .string s⟩
    simp [Document.chars, Document.quote, Draft.readValue, readString_quoted]
  | .array ds =>
    obtain ⟨xs, hx, hs⟩ := readItems_chars ds hd n
      (by simp [Document.chars] at hn; omega) rest
    refine ⟨.array (Document.itemChars ds ++ ']' :: rest) xs none, ?_, .array hs⟩
    simp [Document.chars, Draft.readValue, hx]
  | .object ms =>
    obtain ⟨xs, hx, hs⟩ := readMembers_chars ms hd n
      (by simp [Document.chars] at hn; omega) rest
    refine ⟨.object (Document.memberChars ms ++ '}' :: rest) xs none, ?_, .object hs⟩
    simp [Document.chars, Draft.readValue, hx]
termination_by n

lemma readItems_chars (ds : List Document) (hd : Document.CountingItems ds) (n : ℕ)
    (hn : 3 * (Document.itemChars ds).length + 2 ≤ n) (rest : List Char) :
    ∃ xs, Draft.readItems n true (Document.itemChars ds ++ ']' :: rest) = (xs, none, some rest) ∧
      ShowsItems xs ds := by
  obtain ⟨n, rfl⟩ : ∃ m, n = m + 1 := ⟨n - 1, by omega⟩
  match ds with
  | [] => exact ⟨[], by simp [Document.itemChars, Draft.readItems], .nil⟩
  | d :: ds =>
    obtain ⟨xs, hx, hs⟩ := readItem_chars d ds hd n (by omega) rest
    obtain ⟨c, cs, hc, hb, hne⟩ := head_itemChars ds hd.1
    refine ⟨xs, ?_, hs⟩
    rw [hc] at hx ⊢
    simpa [Draft.readItems, skipBlanks_cons hb, hne] using hx
termination_by n

lemma readItem_chars (d : Document) (ds : List Document) (hd : Document.CountingItems (d :: ds))
    (n : ℕ) (hn : 3 * (Document.itemChars (d :: ds)).length + 1 ≤ n) (rest : List Char) :
    ∃ xs, Draft.readItem n (Document.itemChars (d :: ds) ++ ']' :: rest) =
      (xs, none, some rest) ∧ ShowsItems xs (d :: ds) := by
  obtain ⟨n, rfl⟩ : ∃ m, n = m + 1 := ⟨n - 1, by omega⟩
  obtain ⟨n, rfl⟩ : ∃ m, n = m + 1 := ⟨n - 1, by
    obtain ⟨c, cs, hc, -⟩ := head_itemChars ds hd.1
    rw [hc] at hn; simp at hn; omega⟩
  match ds with
  | [] =>
    simp only [Document.itemChars] at hn ⊢
    obtain ⟨x, hx, hs⟩ := readValue_chars d hd.1 (n + 1) (by omega) (']' :: rest)
      (closes_bracket rest)
    exact ⟨[x], by simp [Draft.readItem, hx, Draft.readItems], .cons hs .nil⟩
  | e :: es =>
    simp only [Document.itemChars, List.length_append, List.length_cons] at hn ⊢
    obtain ⟨x, hx, hs⟩ := readValue_chars d hd.1 (n + 1) (by omega)
      (',' :: (Document.itemChars (e :: es) ++ ']' :: rest)) (closes_comma _)
    obtain ⟨xs, hxs, hss⟩ := readItem_chars e es hd.2 n (by omega) rest
    obtain ⟨c, cs, hc, hb, hne⟩ := head_itemChars es hd.2.1
    refine ⟨x :: xs, ?_, .cons hs hss⟩
    rw [hc] at hx hxs ⊢
    simp only [List.append_assoc, List.cons_append] at hx hxs ⊢
    simp [Draft.readItem, hx, Draft.readItems, skipBlanks_cons hb, hne, hxs]
termination_by n

lemma readMembers_chars (ms : List (String × Document)) (hd : Document.CountingMembers ms) (n : ℕ)
    (hn : 3 * (Document.memberChars ms).length + 2 ≤ n) (rest : List Char) :
    ∃ xs, Draft.readMembers n true (Document.memberChars ms ++ '}' :: rest) =
      (xs, none, some rest) ∧ ShowsMembers xs ms := by
  obtain ⟨n, rfl⟩ : ∃ m, n = m + 1 := ⟨n - 1, by omega⟩
  match ms with
  | [] => exact ⟨[], by simp [Document.memberChars, Draft.readMembers], .nil⟩
  | (k, d) :: ms =>
    obtain ⟨xs, hx, hs⟩ := readMember_chars k d ms hd n (by omega) rest
    refine ⟨xs, ?_, hs⟩
    rw [memberChars_cons] at hx ⊢
    simpa [Draft.readMembers] using hx
termination_by n

lemma readMember_chars (k : String) (d : Document) (ms : List (String × Document))
    (hd : Document.CountingMembers ((k, d) :: ms)) (n : ℕ)
    (hn : 3 * (Document.memberChars ((k, d) :: ms)).length + 1 ≤ n) (rest : List Char) :
    ∃ xs, Draft.readMember n (Document.memberChars ((k, d) :: ms) ++ '}' :: rest) =
      (xs, none, some rest) ∧ ShowsMembers xs ((k, d) :: ms) := by
  obtain ⟨n, rfl⟩ : ∃ m, n = m + 1 := ⟨n - 1, by omega⟩
  obtain ⟨n, rfl⟩ : ∃ m, n = m + 1 := ⟨n - 1, by rw [memberChars_cons] at hn; simp at hn; omega⟩
  rw [memberChars_cons] at hn ⊢
  match ms with
  | [] =>
    obtain ⟨x, hx, hs⟩ := readValue_chars d hd.1 (n + 1) (by simp at hn; omega) ('}' :: rest)
      (closes_brace rest)
    exact ⟨[(⟨.ok k, none⟩, x)], by simp [Draft.readMember, readName_quoted, hx, Draft.readMembers],
      .cons rfl hs .nil⟩
  | (l, e) :: ms =>
    obtain ⟨x, hx, hs⟩ := readValue_chars d hd.1 (n + 1) (by simp at hn; omega)
      (',' :: (Document.memberChars ((l, e) :: ms) ++ '}' :: rest)) (closes_comma _)
    obtain ⟨xs, hxs, hss⟩ := readMember_chars l e ms hd.2 n (by simp at hn; omega) rest
    refine ⟨(⟨.ok k, none⟩, x) :: xs, ?_, .cons rfl hs hss⟩
    simp only [List.cons_append, List.append_assoc]
    rw [memberChars_cons] at hx hxs ⊢
    simp only [List.append_assoc, List.cons_append] at hx hxs ⊢
    simp [Draft.readMember, readName_quoted, hx, Draft.readMembers, hxs]
termination_by n

end

/-- The text of a document is read as a draft that shows the document, and nothing is left. -/
lemma read_chars (d : Document) (hd : d.Counting) :
    ∃ x, Draft.read d.chars = (x, some []) ∧ Shows x d := by
  simpa [Draft.read] using
    readValue_chars d hd (3 * d.chars.length + 3) (by omega) [] closes_nil

mutual

/-- A draft that shows a document can be completed to it, while there is room. -/
lemma complete_shows : ∀ {x : Draft} {d : Document} {room : ℕ}, Shows x d → d.depth ≤ room →
    x.complete room = .ok d
  | _, _, room, .null, _ => by cases room <;> rfl
  | _, _, room, .bool b, _ => by cases room <;> rfl
  | _, _, room, .number n, _ => by cases room <;> rfl
  | _, _, room, .string s, _ => by cases room <;> rfl
  | _, _, 0, .array h, hd => by simp [Document.depth] at hd
  | _, _, 0, .object h, hd => by simp [Document.depth] at hd
  | _, _, room + 1, .array h, hd => by
    have := completeItems_shows h (by simpa [Document.depth] using hd)
    simp [Draft.complete, this, bind, Except.bind]
  | _, _, room + 1, .object h, hd => by
    have := completeMembers_shows h (by simpa [Document.depth] using hd)
    simp [Draft.complete, this, bind, Except.bind]

lemma completeItems_shows : ∀ {xs : List Draft} {ds : List Document} {room : ℕ},
    ShowsItems xs ds → Document.itemsDepth ds ≤ room → Draft.completeItems room xs = .ok ds
  | _, _, _, .nil, _ => rfl
  | _, _, _, .cons h hs, hd => by
    simp only [Document.itemsDepth, max_le_iff] at hd
    simp [Draft.completeItems, complete_shows h hd.1, completeItems_shows hs hd.2, bind,
      Except.bind, pure, Except.pure]

lemma completeMembers_shows : ∀ {xs : List (Name × Draft)} {ms : List (String × Document)}
    {room : ℕ}, ShowsMembers xs ms → Document.membersDepth ms ≤ room →
    Draft.completeMembers room xs = .ok ms
  | _, _, _, .nil, _ => rfl
  | _, _, _, .cons hk h hs, hd => by
    simp only [Document.membersDepth, max_le_iff] at hd
    simp [Draft.completeMembers, hk, complete_shows h hd.1, completeMembers_shows hs hd.2, bind,
      Except.bind, pure, Except.pure]

end

end PacketSections.Json
