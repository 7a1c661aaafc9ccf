import Mathlib
import PacketSections.Proofs.Reading
import PacketSections.Proofs.WrittenForms

/-!
Expressions are read back from their text in the language of sections.

The text does not show spans, the widths of constants, or whether a constant is a truth value. A
member, an element or a slice of an expression with one operand is written as if the operator came
last; apart from this, the text says how an expression is made up. A reader shows it: names and
numbers are words and end where the word ends, what has two operands is in brackets, and operators
end at a space. The reader goes from left to right, so what is known of a base has to be said with
the members and indices that follow it still unread.
-/

namespace PacketSections

open Json (digits_isDigit takeWhile_of_head)

/-- A word that does not start with a digit. -/
def isIdentifier (name : String) : Bool :=
  match name.toList with
  | [] => false
  | c :: cs => !c.isDigit && (c :: cs).all isWordChar

namespace Expr

def isUnary : Expr → Bool
  | unary .. => true
  | _ => false

/-- Whether names are identifiers and no member, element or slice is one of an expression with one
operand. -/
def readable : Expr → Bool
  | path name _ => isIdentifier name
  | member base name _ => !base.isUnary && base.readable && isIdentifier name
  | index base i _ => !base.isUnary && base.readable && i.readable
  | slice base _ _ _ => !base.isUnary && base.readable
  | constant _ _ _ => true
  | bool _ _ => true
  | unary _ operand _ => operand.readable
  | binary _ lhs rhs _ => lhs.readable && rhs.readable

/-- What the text shows: no spans and no widths, and truth values are the constants one and zero. -/
def core : Expr → Expr
  | path name _ => path name none
  | member base name _ => member base.core name none
  | index base i _ => index base.core i.core none
  | slice base hi lo _ => slice base.core hi lo none
  | constant value _ _ => constant value none none
  | bool value _ => constant (if value then 1 else 0) none none
  | unary op operand _ => unary op operand.core none
  | binary op lhs rhs _ => binary op lhs.core rhs.core none

lemma convert_core (e : Expr) : e.core.convert = e.convert := by
  induction e with
  | bool value span => cases value <;> rfl
  | _ => simp [core, convert, *]

/-! ### The reader -/

def expect (c : Char) : List Char → Option (List Char)
  | [] => none
  | d :: cs => if d = c then some cs else none

def number (cs : List Char) : ℕ := Nat.ofDigitChars 10 cs 0

/-- A number or a name. -/
def ofWord (cs : List Char) : Expr :=
  if cs.head?.any Char.isDigit then constant (.ofNat (number cs)) none none
  else path (String.ofList cs) none

def unaryOp? (c : Char) : Option UnaryOp := UnaryOp.all.find? fun op => op.text.toList = [c]

/-- An operator between two spaces. -/
def readOp (cs : List Char) : Option (BinaryOp × List Char) := do
  let cs ← expect ' ' cs
  let op ← BinaryOp.all.find? fun op => op.text.toList = cs.takeWhile (· != ' ')
  let cs ← expect ' ' (cs.dropWhile (· != ' '))
  some (op, cs)

mutual

/-- Reads an expression in at most so many steps; gives what comes after it, too. -/
def readExpr : ℕ → List Char → Option (Expr × List Char)
  | 0, _ => none
  | _ + 1, [] => none
  | n + 1, c :: cs =>
    match unaryOp? c with
    | some op => do
      let (e, cs) ← readExpr n cs
      some (.unary op e none, cs)
    | none =>
      if c = '(' then do
        let (lhs, cs) ← readExpr n cs
        let (op, cs) ← readOp cs
        let (rhs, cs) ← readExpr n cs
        let cs ← expect ')' cs
        readLinks n (.binary op lhs rhs none) cs
      else readLinks n (ofWord ((c :: cs).takeWhile isWordChar)) ((c :: cs).dropWhile isWordChar)

/-- Reads the members, indices and slices after an expression. -/
def readLinks : ℕ → Expr → List Char → Option (Expr × List Char)
  | 0, _, _ => none
  | n + 1, e, '.' :: cs =>
    readLinks n (.member e (String.ofList (cs.takeWhile isWordChar)) none)
      (cs.dropWhile isWordChar)
  | n + 1, e, '[' :: cs => do
    match ← readExpr n cs with
    | (i, ']' :: cs) => readLinks n (.index e i none) cs
    | (.constant hi _ _, ':' :: cs) =>
      let rest ← expect ']' (cs.dropWhile Char.isDigit)
      readLinks n
        (.slice e (.ofNat hi.toNat) (.ofNat (number (cs.takeWhile Char.isDigit))) none) rest
    | _ => none
  | _ + 1, e, cs => some (e, cs)

end

/-- The expression that a text stands for. -/
def read? (text : String) : Option Expr :=
  match readExpr (text.length + 1) text.toList with
  | some (e, []) => some e
  | _ => none

end Expr

/-! ### Steps of the reader -/

/-- No word goes on there. -/
def WordEnds (rest : List Char) : Prop := ∀ c ∈ rest.head?, isWordChar c = false

/-- No expression goes on there. -/
def Stops (rest : List Char) : Prop :=
  ∀ c ∈ rest.head?, isWordChar c = false ∧ c ≠ '.' ∧ c ≠ '['

lemma wordEnds_cons {c : Char} (hc : isWordChar c = false) (cs : List Char) :
    WordEnds (c :: cs) := by
  simpa [WordEnds] using hc

lemma stops_cons {c : Char} (hc : isWordChar c = false ∧ c ≠ '.' ∧ c ≠ '[') (cs : List Char) :
    Stops (c :: cs) := by
  simpa [Stops] using hc

lemma Stops.wordEnds {rest : List Char} (h : Stops rest) : WordEnds rest :=
  fun c hc => (h c hc).1

lemma isIdentifier_spec {name : String} (h : isIdentifier name = true) :
    name.toList ≠ [] ∧ name.toList.head?.any Char.isDigit = false ∧
      ∀ c ∈ name.toList, isWordChar c = true := by
  unfold isIdentifier at h
  split at h
  · cases h
  · next c cs hcs =>
    rw [Bool.and_eq_true, Bool.not_eq_true', List.all_eq_true] at h
    rw [hcs]
    exact ⟨List.cons_ne_nil c cs, h.1, h.2⟩

lemma isWordChar_of_isDigit {c : Char} (h : c.isDigit = true) : isWordChar c = true := by
  simp [isWordChar, Char.isAlphanum, h]

namespace Expr

variable {n : ℕ} {rest : List Char}

lemma readExpr_word {w : List Char} (hne : w ≠ []) (hw : ∀ c ∈ w, isWordChar c = true)
    (hr : WordEnds rest) : readExpr (n + 1) (w ++ rest) = readLinks n (ofWord w) rest := by
  obtain ⟨c, cs, rfl⟩ := List.exists_cons_of_ne_nil hne
  have hc : isWordChar c = true := hw c (by simp)
  have hop : unaryOp? c = none := by
    rw [unaryOp?, List.find?_eq_none]
    intro op _ htext
    cases op <;> simp_all [UnaryOp.text] <;> simp [← htext, isWordChar] at hc
  have hbracket : c ≠ '(' := by
    rintro rfl
    exact absurd hc (by decide)
  obtain ⟨htake, hdrop⟩ := takeWhile_of_head hw hr
  rw [List.cons_append] at htake hdrop ⊢
  rw [readExpr, hop]
  simp only [if_neg hbracket, htake, hdrop]

lemma readExpr_unary (op : UnaryOp) (cs : List Char) :
    readExpr (n + 1) (op.text.toList ++ cs) =
      (readExpr n cs).map fun r => (unary op r.1 none, r.2) := by
  have hop : ∀ op : UnaryOp, ∃ c, op.text.toList = [c] ∧ unaryOp? c = some op := by
    intro op
    cases op <;> exact ⟨_, rfl, by decide⟩
  obtain ⟨c, htext, hc⟩ := hop op
  rw [htext, List.singleton_append, readExpr, hc]
  cases readExpr n cs <;> rfl

lemma readOp_text (op : BinaryOp) (cs : List Char) :
    readOp (' ' :: (op.text.toList ++ ' ' :: cs)) = some (op, cs) := by
  cases op <;> rfl

lemma readLinks_stop (e : Expr) (hr : Stops rest) : readLinks (n + 1) e rest = some (e, rest) := by
  rw [readLinks]
  · rintro cs rfl
    exact (hr _ rfl).2.1 rfl
  · rintro cs rfl
    exact (hr _ rfl).2.2 rfl

lemma readLinks_member (e : Expr) {w : List Char} (hw : ∀ c ∈ w, isWordChar c = true)
    (hr : WordEnds rest) :
    readLinks (n + 1) e ('.' :: (w ++ rest)) =
      readLinks n (member e (String.ofList w) none) rest := by
  obtain ⟨htake, hdrop⟩ := takeWhile_of_head hw hr
  rw [readLinks, htake, hdrop]

lemma readLinks_index (e : Expr) {i : Expr} {cs : List Char}
    (h : readExpr n cs = some (i, ']' :: rest)) :
    readLinks (n + 1) e ('[' :: cs) = readLinks n (index e i none) rest := by
  rw [readLinks, h]
  rfl

lemma readLinks_slice (e : Expr) {hi : UInt64} {w cs : List Char}
    (hw : ∀ c ∈ w, c.isDigit = true)
    (h : readExpr n cs = some (constant hi none none, ':' :: (w ++ ']' :: rest))) :
    readLinks (n + 1) e ('[' :: cs) =
      readLinks n (slice e (.ofNat hi.toNat) (.ofNat (number w)) none) rest := by
  have hclose : ∀ c ∈ (']' :: rest).head?, c.isDigit = false := by simp
  obtain ⟨htake, hdrop⟩ := takeWhile_of_head hw hclose
  rw [readLinks, h]
  simp only [Option.bind_eq_bind, Option.bind_some, htake, hdrop]
  rfl

lemma readExpr_binary {op : BinaryOp} {lhs rhs : Expr} {cs ds : List Char}
    (hl : readExpr n cs = some (lhs, ' ' :: (op.text.toList ++ ' ' :: ds)))
    (hr : readExpr n ds = some (rhs, ')' :: rest)) :
    readExpr (n + 1) ('(' :: cs) = readLinks n (binary op lhs rhs none) rest := by
  have hop : unaryOp? '(' = none := by decide
  rw [readExpr, hop]
  simp only [if_true, hl, Option.bind_eq_bind, Option.bind_some, readOp_text, hr]
  rfl

/-! ### Reading what is written -/

/-- Wherever no word goes on, the expression is read and its members and indices come next. Each
character gives a step, so that enough of them are left. -/
def Passed (e : Expr) : Prop :=
  ∀ n rest, WordEnds rest → (e.converted ++ rest).length < n →
    ∃ m, rest.length < m ∧ readExpr n (e.converted ++ rest) = readLinks m e.core rest

/-- Wherever no expression goes on, the expression is read. -/
def ReadBack (e : Expr) : Prop :=
  ∀ n rest, Stops rest → (e.converted ++ rest).length < n →
    readExpr n (e.converted ++ rest) = some (e.core, rest)

lemma Passed.readBack {e : Expr} (h : e.Passed) : e.ReadBack := by
  intro n rest hr hn
  obtain ⟨m, hm, hread⟩ := h n rest hr.wordEnds hn
  obtain ⟨k, rfl⟩ := Nat.exists_eq_add_one_of_ne_zero (n := m) (by omega)
  rw [hread, readLinks_stop e.core hr]

lemma passed_of_word {e : Expr} {w : List Char} (hconv : e.converted = w)
    (hcore : ofWord w = e.core) (hne : w ≠ []) (hw : ∀ c ∈ w, isWordChar c = true) :
    e.Passed := by
  intro n rest hr hn
  have hpos : 0 < w.length := List.length_pos_iff.mpr hne
  rw [hconv, List.length_append] at hn
  obtain ⟨k, rfl⟩ := Nat.exists_eq_add_one_of_ne_zero (n := n) (by omega)
  exact ⟨k, by omega, by rw [hconv, readExpr_word hne hw hr, hcore]⟩

lemma passed_path {name : String} (h : isIdentifier name = true) (span : Option Span) :
    (path name span).Passed := by
  obtain ⟨hne, hdigit, hword⟩ := isIdentifier_spec h
  refine passed_of_word (w := name.toList) rfl ?_ hne hword
  rw [ofWord, hdigit, String.ofList_toList]
  rfl

lemma passed_constant (value : UInt64) (width : Option UInt32) (span : Option Span) :
    (constant value width span).Passed := by
  refine passed_of_word (w := Nat.toDigits 10 value.toNat) rfl ?_ Nat.toDigits_ne_nil
    fun c hc => isWordChar_of_isDigit (digits_isDigit hc)
  have hhead : (Nat.toDigits 10 value.toNat).head?.any Char.isDigit = true := by
    rw [List.head?_eq_some_head Nat.toDigits_ne_nil]
    exact digits_isDigit (List.head_mem _)
  rw [ofWord, hhead, if_pos rfl, number, Nat.ofDigitChars_ten_toDigits, UInt64.ofNat_toNat]
  rfl

lemma passed_bool (value : Bool) (span : Option Span) : (bool value span).Passed := by
  cases value with
  | false => exact passed_constant 0 none none
  | true => exact passed_constant 1 none none

lemma passed_member {base : Expr} (hb : base.Passed) {name : String}
    (hname : isIdentifier name = true) (span : Option Span) : (member base name span).Passed := by
  intro n rest hr hn
  obtain ⟨-, -, hword⟩ := isIdentifier_spec hname
  simp only [converted, List.append_assoc, List.cons_append] at hn ⊢
  obtain ⟨m, hm, hread⟩ := hb n _ (wordEnds_cons (by decide) _) hn
  simp only [List.length_cons, List.length_append] at hm
  obtain ⟨k, rfl⟩ := Nat.exists_eq_add_one_of_ne_zero (n := m) (by omega)
  refine ⟨k, by omega, ?_⟩
  rw [hread, readLinks_member base.core hword hr, String.ofList_toList, core]

lemma passed_index {base i : Expr} (hb : base.Passed) (hi : i.ReadBack) (span : Option Span) :
    (index base i span).Passed := by
  intro n rest hr hn
  simp only [converted, List.append_assoc, List.cons_append, List.nil_append] at hn ⊢
  obtain ⟨m, hm, hread⟩ := hb n _ (wordEnds_cons (by decide) _) hn
  rw [List.length_cons] at hm
  obtain ⟨k, rfl⟩ := Nat.exists_eq_add_one_of_ne_zero (n := m) (by omega)
  have hindex := hi k (']' :: rest) (stops_cons (by decide) _) (by omega)
  simp only [List.length_cons, List.length_append] at hm
  exact ⟨k, by omega, by rw [hread, readLinks_index base.core hindex, core]⟩

lemma passed_slice {base : Expr} (hb : base.Passed) (hi lo : UInt32) (span : Option Span) :
    (slice base hi lo span).Passed := by
  intro n rest hr hn
  simp only [converted, bounds, List.append_assoc, List.cons_append, List.nil_append] at hn ⊢
  obtain ⟨m, hm, hread⟩ := hb n _ (wordEnds_cons (by decide) _) hn
  rw [List.length_cons] at hm
  obtain ⟨k, rfl⟩ := Nat.exists_eq_add_one_of_ne_zero (n := m) (by omega)
  -- the upper bound is read like an index
  have hhi := (passed_constant hi.toUInt64 none none).readBack k
    (':' :: (Nat.toDigits 10 lo.toNat ++ ']' :: rest)) (stops_cons (by decide) _)
  simp only [converted, core, UInt32.toNat_toUInt64] at hhi
  have hslice := readLinks_slice base.core (fun c hc => digits_isDigit hc) (hhi (by omega))
  simp only [List.length_cons, List.length_append] at hm
  refine ⟨k, by omega, ?_⟩
  rw [hread, hslice, number, Nat.ofDigitChars_ten_toDigits, UInt32.toNat_toUInt64,
    UInt32.ofNat_toNat, UInt32.ofNat_toNat, core]

lemma passed_binary (op : BinaryOp) {lhs rhs : Expr} (hl : lhs.ReadBack) (hr : rhs.ReadBack)
    (span : Option Span) : (binary op lhs rhs span).Passed := by
  intro n rest hrest hn
  simp only [converted, List.append_assoc, List.cons_append, List.nil_append] at hn ⊢
  rw [List.length_cons] at hn
  obtain ⟨k, rfl⟩ := Nat.exists_eq_add_one_of_ne_zero (n := n) (by omega)
  have hlhs := hl k (' ' :: (op.text.toList ++ ' ' :: (rhs.converted ++ ')' :: rest)))
    (stops_cons (by decide) _) (by omega)
  simp only [List.length_cons, List.length_append] at hn
  have hrhs := hr k (')' :: rest) (stops_cons (by decide) _) (by simp; omega)
  exact ⟨k, by omega, by rw [readExpr_binary hlhs hrhs, core]⟩

lemma readBack_unary (op : UnaryOp) {operand : Expr} (h : operand.ReadBack) (span : Option Span) :
    (unary op operand span).ReadBack := by
  intro n rest hr hn
  simp only [converted, List.append_assoc] at hn ⊢
  have hpos : 0 < op.text.toList.length := by cases op <;> decide
  rw [List.length_append] at hn
  obtain ⟨k, rfl⟩ := Nat.exists_eq_add_one_of_ne_zero (n := n) (by omega)
  rw [readExpr_unary, h k rest hr (by omega)]
  rfl

/-- A readable expression is read back. -/
lemma readBack_of_readable {e : Expr} (he : e.readable = true) :
    (e.isUnary = false → e.Passed) ∧ e.ReadBack := by
  have hpassed {e : Expr} (h : e.Passed) : (e.isUnary = false → e.Passed) ∧ e.ReadBack :=
    ⟨fun _ => h, h.readBack⟩
  induction e with
  | path name span => exact hpassed (passed_path he span)
  | member base name span ih =>
    simp only [readable, Bool.and_eq_true, Bool.not_eq_true'] at he
    exact hpassed (passed_member ((ih he.1.2).1 he.1.1) he.2 span)
  | index base i span ihb ihi =>
    simp only [readable, Bool.and_eq_true, Bool.not_eq_true'] at he
    exact hpassed (passed_index ((ihb he.1.2).1 he.1.1) (ihi he.2).2 span)
  | slice base hi lo span ih =>
    simp only [readable, Bool.and_eq_true, Bool.not_eq_true'] at he
    exact hpassed (passed_slice ((ih he.2).1 he.1) hi lo span)
  | constant value width span => exact hpassed (passed_constant value width span)
  | bool value span => exact hpassed (passed_bool value span)
  | unary op operand span ih => exact ⟨nofun, readBack_unary op (ih he).2 span⟩
  | binary op lhs rhs span ihl ihr =>
    simp only [readable, Bool.and_eq_true] at he
    exact hpassed (passed_binary op (ihl he.1).2 (ihr he.2).2 span)

lemma read?_convert {e : Expr} (he : e.readable = true) : read? e.convert = some e.core := by
  have hread := (readBack_of_readable he).2 (e.convert.length + 1) [] (by simp [Stops])
  rw [List.append_nil, ← toList_convert, String.length_toList] at hread
  rw [read?, hread (Nat.lt_succ_self _)]

/-- **Unique readability.** Readable expressions have the same text only if they are the same but
for spans, widths and truth values. A member, an element or a slice of an expression with one
operand has the text of another expression: the operator applied to that member, element or slice
of the operand. -/
theorem convert_eq_iff_core :
    (∀ e f : Expr, e.readable = true → f.readable = true →
      (e.convert = f.convert ↔ e.core = f.core)) ∧
    ∀ (op : UnaryOp) (e i : Expr) (name : String) (hi lo : UInt32) (s t : Option Span),
      (member (unary op e s) name t).convert = (unary op (member e name t) s).convert ∧
      (index (unary op e s) i t).convert = (unary op (index e i t) s).convert ∧
      (slice (unary op e s) hi lo t).convert = (unary op (slice e hi lo t) s).convert := by
  refine ⟨fun e f he hf => ⟨fun h => ?_, fun h => ?_⟩, fun op e i name hi lo s t => ?_⟩
  · have hread := read?_convert he
    rw [h, read?_convert hf] at hread
    exact (Option.some.inj hread).symm
  · rw [← convert_core e, h, convert_core]
  · simp [convert, String.append_assoc]

/-- `((a - -b[i].c[7:4]) >= x2)` -/
def entangled (i : Expr) : Expr :=
  .binary .ge
    (.binary .sub (.path "a" none)
      (.unary .negate (.slice (.member (.index (.path "b" none) i none) "c" none) 7 4 none) none)
      none)
    (.path "x2" none) none

/-- The index may be written as a truth value or with a width, but its sign shows. -/
theorem convert_eq_iff_core_entangled :
    (entangled (.bool true none)).convert = (entangled (.constant 1 (some 8) none)).convert ∧
    (entangled (.bool true none)).convert ≠
      (entangled (.unary .negate (.constant 1 none none) none)).convert := by
  constructor
  · exact (convert_eq_iff_core.1 _ _ (by decide) (by decide)).mpr rfl
  · intro h
    exact absurd ((convert_eq_iff_core.1 _ _ (by decide) (by decide)).mp h) (by decide)

end Expr

end PacketSections
