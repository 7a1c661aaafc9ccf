import Mathlib
import PacketSections.Target.Emit

/-!
The emitted text can be read in one way only.

Indentation tells where an item, a layout and the updates of a section end: the lines inside start
with more tabs than the line that closes them. The first line of an item tells what it is, since
names are words. So the lines of an item are a code of which no word begins another, and a sequence
of items is determined by its lines.
-/

namespace PacketSections

/-! ### Lines and their characters -/

def tabs (n : ℕ) : List Char := List.replicate n '\t'

/-- Tabs, and no highlighting. -/
def EmitConfig.tabbed (indent : ℕ) : EmitConfig := { indent := indent }

/-- The characters of a line, without its end. -/
def Line.chars (indent : ℕ) : Line → List Char
  | blank => []
  | pieces level ps => tabs (indent + level) ++ ps.flatMap fun p => p.text.toList

lemma EmitConfig.pad_tabbed (indent level : ℕ) :
    ((tabbed indent).pad level).toList = tabs (indent + level) := by
  rw [pad, String.toList_join, tabs, tabbed]
  induction indent + level with
  | zero => rfl
  | succ n ih => simpa [List.replicate_succ] using ih

lemma Line.write_tabbed (indent : ℕ) (l : Line) :
    (l.write (.tabbed indent)).toList = l.chars indent ++ ['\n'] := by
  cases l with
  | blank => simp [write, chars]
  | pieces level ps =>
    have hpiece (p : Piece) : p.write (EmitConfig.tabbed indent).colored = p.text := by
      obtain ⟨role, text⟩ := p
      cases role <;> rfl
    simp [write, chars, EmitConfig.pad_tabbed, String.toList_join, hpiece, List.flatMap_map]

lemma Program.emit_tabbed (indent : ℕ) (p : Program) :
    (p.emit (.tabbed indent)).toList =
      (p.toLines.map (Line.chars indent)).flatMap fun l => l ++ ['\n'] := by
  simp [emit, String.toList_join, List.flatMap_map, Line.write_tabbed]

/-! ### Codes -/

section codes

variable {α γ δ : Type}

/-- A sequence of code words is read from left to right: if no code word begins another, and what
follows the sequence does not begin with one, the sequence is determined. -/
lemma flatMap_code {c : α → List γ} {v : α → δ} {P : α → Prop}
    (hcode : ∀ a b x y, P a → P b → c a ++ x = c b ++ y → v a = v b ∧ x = y)
    {as bs : List α} {r s : List γ} (has : ∀ a ∈ as, P a) (hbs : ∀ b ∈ bs, P b)
    (hr : ∀ a x, P a → c a ++ x ≠ r) (hs : ∀ a x, P a → c a ++ x ≠ s)
    (h : as.flatMap c ++ r = bs.flatMap c ++ s) : as.map v = bs.map v ∧ r = s := by
  induction as generalizing bs with
  | nil =>
    cases bs with
    | nil => exact ⟨rfl, h⟩
    | cons b bs =>
      rw [List.flatMap_nil, List.nil_append, List.flatMap_cons, List.append_assoc] at h
      exact absurd h.symm (hr b _ (hbs b (by simp)))
  | cons a as ih =>
    rw [List.forall_mem_cons] at has
    cases bs with
    | nil =>
      rw [List.flatMap_nil, List.nil_append, List.flatMap_cons, List.append_assoc] at h
      exact absurd h (hs a _ has.1)
    | cons b bs =>
      rw [List.forall_mem_cons] at hbs
      rw [List.flatMap_cons, List.flatMap_cons, List.append_assoc, List.append_assoc] at h
      obtain ⟨hv, h⟩ := hcode a b _ _ has.1 hbs.1 h
      obtain ⟨hvs, hrs⟩ := ih has.2 hbs.2 h
      exact ⟨by rw [List.map_cons, List.map_cons, hv, hvs], hrs⟩

/-- The sequence of code words depends on what determines each of them. -/
lemma flatMap_congr_map {c : α → List γ} {v : α → δ} (hc : ∀ a b, v a = v b → c a = c b)
    {as bs : List α} (h : as.map v = bs.map v) : as.flatMap c = bs.flatMap c := by
  induction as generalizing bs with
  | nil => simp_all
  | cons a as ih =>
    cases bs with
    | nil => simp at h
    | cons b bs =>
      obtain ⟨hab, h⟩ := List.cons.inj h
      rw [List.flatMap_cons, List.flatMap_cons, hc a b hab, ih h]

/-- Elements with a property end at the first one without it. -/
lemma append_cons_inj {D : γ → Prop} {xs ys x y : List γ} {e f : γ} (hxs : ∀ a ∈ xs, D a)
    (hys : ∀ a ∈ ys, D a) (he : ¬ D e) (hf : ¬ D f) (h : xs ++ e :: x = ys ++ f :: y) :
    xs = ys ∧ e = f ∧ x = y := by
  induction xs generalizing ys with
  | nil =>
    cases ys with
    | nil => simpa using h
    | cons b ys =>
      obtain rfl : e = b := (List.cons.inj h).1
      exact absurd (hys e (by simp)) he
  | cons a xs ih =>
    cases ys with
    | nil =>
      obtain rfl : a = f := (List.cons.inj h).1
      exact absurd (hxs a (by simp)) hf
    | cons b ys =>
      rw [List.forall_mem_cons] at hxs hys
      rw [List.cons_append, List.cons_append, List.cons.injEq] at h
      obtain ⟨hxy, hef, htail⟩ := ih hxs.2 hys.2 h.2
      exact ⟨by rw [h.1, hxy], hef, htail⟩

end codes

/-- Lines without line feeds are determined by their text. -/
lemma lines_inj {ls ms : List (List Char)} (hl : ∀ l ∈ ls, '\n' ∉ l) (hm : ∀ m ∈ ms, '\n' ∉ m)
    (h : ls.flatMap (fun l => l ++ ['\n']) = ms.flatMap fun m => m ++ ['\n']) : ls = ms := by
  have hcode : ∀ (a b x y : List Char), '\n' ∉ a → '\n' ∉ b →
      a ++ ['\n'] ++ x = b ++ ['\n'] ++ y → id a = id b ∧ x = y := by
    intro a b x y ha hb hab
    rw [List.append_assoc, List.append_assoc] at hab
    obtain ⟨hab, -, hxy⟩ := append_cons_inj (D := fun c => c ≠ '\n')
      (fun c hc hn => ha (hn ▸ hc)) (fun c hc hn => hb (hn ▸ hc)) (by simp) (by simp) hab
    exact ⟨hab, hxy⟩
  simpa using (flatMap_code hcode hl hm (r := []) (s := []) (by simp) (by simp)
    (by simpa using h)).1

/-! ### Texts of several lines -/

/-- A line that is not empty and cannot be taken for the end of one. -/
structure Whole (l : List Char) : Prop where
  oneLine : '\n' ∉ l
  last : l.getLast? ≠ some '\r'
  nonempty : l ≠ []

lemma whole_comma {l : List Char} (h : '\n' ∉ l) : Whole (l ++ [',']) where
  oneLine := by simpa using h
  last := by simp
  nonempty := by simp

namespace Text

/-- Cutting a text into lines adds no characters, and leaves no line feeds in them. -/
lemma mem_of_mem_cutLines {cs : List Char} :
    ∀ l ∈ cutLines cs, ∀ c ∈ l.1, c ∈ cs ∧ c ≠ '\n' := by
  fun_induction cutLines cs with
  | case1 => simp
  | case2 cs ih | case3 cs _ ih =>
    rw [List.forall_mem_cons]
    refine ⟨by simp, fun l hl c hc => ?_⟩
    obtain ⟨hmem, hne⟩ := ih l hl c hc
    exact ⟨by simp [hmem], hne⟩
  | case4 c cs _ hc ih =>
    have htail : ∀ l ∈ cutLines cs, ∀ d ∈ l.1, d ∈ c :: cs ∧ d ≠ '\n' := fun l hl d hd =>
      ⟨List.mem_cons_of_mem c (ih l hl d hd).1, (ih l hl d hd).2⟩
    cases hcut : cutLines cs with
    | nil => simpa [consLine] using hc
    | cons l ls =>
      rw [hcut, List.forall_mem_cons] at htail
      rw [consLine, List.forall_mem_cons]
      exact ⟨List.forall_mem_cons.mpr ⟨⟨by simp, hc⟩, htail.1⟩, htail.2⟩

lemma cutLines_cons {c : Char} {cs : List Char} (hc : c ≠ '\n')
    (h : c = '\r' → cs.head? ≠ some '\n') : cutLines (c :: cs) = consLine c (cutLines cs) := by
  rw [cutLines]
  · rw [if_neg hc]
  · rintro _ rfl rfl
    exact h rfl rfl

/-- A line up to its end, and what follows. -/
lemma cutLines_append {l : List Char} (hl : '\n' ∉ l) (hr : l.getLast? ≠ some '\r')
    (cs : List Char) : cutLines (l ++ '\n' :: cs) = (l, 1) :: cutLines cs := by
  induction l with
  | nil => rw [List.nil_append, cutLines] <;> simp
  | cons c l ih =>
    simp only [List.mem_cons, not_or] at hl
    -- a carriage return ends the line only right before the line feed
    have hhead : c = '\r' → (l ++ '\n' :: cs).head? ≠ some '\n' := by
      rintro rfl
      cases l with
      | nil => exact absurd rfl hr
      | cons d l => simpa using fun h => hl.2 (by simp [h])
    have hlast : l.getLast? ≠ some '\r' := by
      cases l with
      | nil => simp
      | cons d l => simpa using hr
    rw [List.cons_append, cutLines_cons (Ne.symm hl.1) hhead, ih hl.2 hlast, consLine]

lemma cutLines_single {l : List Char} (hl : '\n' ∉ l) (hne : l ≠ []) :
    cutLines l = [(l, 0)] := by
  induction l with
  | nil => exact absurd rfl hne
  | cons c l ih =>
    simp only [List.mem_cons, not_or] at hl
    cases l with
    | nil => rw [cutLines_cons (Ne.symm hl.1) (by simp), cutLines, consLine]
    | cons d l =>
      have hhead : (d :: l).head? ≠ some '\n' := by simpa using fun h => hl.2 (by simp [h])
      rw [cutLines_cons (Ne.symm hl.1) fun _ => hhead, ih hl.2 (by simp), consLine]

lemma cutLines_intercalate {ls : List (List Char)} (h : ∀ l ∈ ls, Whole l) :
    (cutLines (['\n'].intercalate ls)).map Prod.fst = ls := by
  induction ls with
  | nil => simp [cutLines]
  | cons l ls ih =>
    rw [List.forall_mem_cons] at h
    cases ls with
    | nil => simp [cutLines_single h.1.oneLine h.1.nonempty]
    | cons m ms =>
      rw [List.intercalate_cons_cons, List.append_assoc, List.singleton_append,
        cutLines_append h.1.oneLine h.1.last, List.map_cons, ih h.2]

end Text

/-- The lines of a block, if none of them is empty. -/
lemma Line.block_chars (indent level : ℕ) {text : String} {ls : List (List Char)}
    (htext : text.toList = ['\n'].intercalate ls) (h : ∀ l ∈ ls, Whole l) :
    (Line.block level text).map (Line.chars indent) = ls.map (tabs (indent + level) ++ ·) := by
  have hcut := Text.cutLines_intercalate h
  rw [← htext] at hcut
  rw [← hcut] at h ⊢
  rw [block, Text.lines, List.map_map, List.map_map, List.map_map]
  refine List.map_congr_left fun l hl => ?_
  have hne : l.1 ≠ [] := (h l.1 (List.mem_map_of_mem hl)).nonempty
  simp [hne, chars, Piece.plain]

/-! ### Layouts -/

def OneLine (s : String) : Prop := '\n' ∉ s.toList

lemma notMem_digits {c : Char} {n : ℕ} (hc : c.isDigit = false) : c ∉ Nat.toDigits 10 n := by
  intro h
  rw [Nat.isDigit_of_mem_toDigits (by omega) (by omega) h] at hc
  cases hc

namespace BitField

/-- The lines of the fields, without indentation. -/
def rows : List BitField → List (List Char)
  | [] => []
  | [f] => [f.text.toList]
  | f :: g :: fs => (f.text.toList ++ [',']) :: rows (g :: fs)

/-- The lines of a block. -/
def blockRows (fs : List BitField) : List (List Char) :=
  "struct \x7b".toList :: (rows fs).map ('\t' :: ·) ++ [['\x7d']]

lemma block_toList (fs : List BitField) :
    (block fs).toList = ['\n'].intercalate (blockRows fs) := by
  have hrows : (lines fs).toList ++ ['\x7d'] =
      ['\n'].intercalate ((rows fs).map ('\t' :: ·) ++ [['\x7d']]) := by
    fun_induction rows fs with
    | case1 => simp [lines]
    | case2 f => simp [lines]
    | case3 f g fs ih =>
      rw [List.map_cons, List.cons_append, List.intercalate_cons_of_ne_nil (by simp), ← ih]
      simp [lines]
  rw [blockRows, List.cons_append, List.intercalate_cons_of_ne_nil (by simp), ← hrows]
  simp [block]

lemma text_toList (f : BitField) :
    f.text.toList = f.name.toList ++ (" : ".toList ++ Nat.toDigits 10 f.bits.toNat) := by
  simp [text]

lemma whole_text {f : BitField} (h : OneLine f.name) : Whole ('\t' :: f.text.toList) where
  oneLine := by
    have hdigits : '\n' ∉ Nat.toDigits 10 f.bits.toNat := notMem_digits (by decide)
    simp_all [text_toList, OneLine]
  last := by
    have hdigits : '\r' ∉ Nat.toDigits 10 f.bits.toNat := notMem_digits (by decide)
    rw [text_toList, ← List.cons_append, ← List.append_assoc,
      List.getLast?_append_of_ne_nil _ Nat.toDigits_ne_nil]
    exact fun hlast => hdigits (List.mem_of_getLast? hlast)
  nonempty := by simp

lemma whole_row {fs : List BitField} (h : ∀ f ∈ fs, OneLine f.name) {r : List Char}
    (hr : r ∈ rows fs) : Whole ('\t' :: r) := by
  fun_induction rows fs with
  | case1 => simp at hr
  | case2 f =>
    obtain rfl := List.mem_singleton.1 hr
    exact whole_text (h f (by simp))
  | case3 f g fs ih =>
    rw [List.forall_mem_cons] at h
    rcases List.mem_cons.1 hr with rfl | hr
    · exact whole_comma (whole_text h.1).oneLine
    · exact ih h.2 hr

lemma whole_blockRows {fs : List BitField} (h : ∀ f ∈ fs, OneLine f.name) :
    ∀ l ∈ blockRows fs, Whole l := by
  simp only [blockRows, List.cons_append, List.forall_mem_cons, List.forall_mem_append,
    List.forall_mem_map, List.not_mem_nil, false_imp_iff, implies_true, and_true]
  exact ⟨⟨by decide, by decide, by decide⟩, fun r hr => whole_row h hr,
    ⟨by decide, by decide, by decide⟩⟩

/-- The lines of a layout: the ones inside start with one more tab. -/
lemma layout_chars (indent : ℕ) {fs : List BitField} (h : ∀ f ∈ fs, OneLine f.name) :
    (Line.block 1 (block fs)).map (Line.chars indent) =
      (tabs (indent + 1) ++ "struct \x7b".toList) ::
        (rows fs).map (tabs (indent + 2) ++ ·) ++ [tabs (indent + 1) ++ ['\x7d']] := by
  have htab (r : List Char) : tabs (indent + 1) ++ '\t' :: r = tabs (indent + 2) ++ r := by
    simp [tabs, List.replicate_succ' (n := indent + 1)]
  rw [Line.block_chars indent 1 (block_toList fs) (whole_blockRows h), blockRows]
  simp [htab]

end BitField

/-- The line starts with at least that many tabs. -/
def Deep (n : ℕ) (l : List Char) : Prop := ∃ t, l = tabs n ++ t

lemma not_deep {n : ℕ} {c : Char} {t : List Char} (hc : c ≠ '\t') :
    ¬ Deep (n + 1) (tabs n ++ c :: t) := by
  rintro ⟨u, hu⟩
  rw [tabs, tabs, List.replicate_succ', List.append_assoc] at hu
  exact hc (List.cons.inj (List.append_cancel_left hu)).1

/-- Lines inside of a block end at the line that closes it. -/
lemma deep_inj {n : ℕ} {ls ms : List (List Char)} {c d : Char} {t u : List Char}
    {x y : List (List Char)} (hc : c ≠ '\t') (hd : d ≠ '\t')
    (h : ls.map (tabs (n + 1) ++ ·) ++ (tabs n ++ c :: t) :: x =
      ms.map (tabs (n + 1) ++ ·) ++ (tabs n ++ d :: u) :: y) : ls = ms ∧ x = y := by
  have hdeep (ls : List (List Char)) : ∀ l ∈ ls.map (tabs (n + 1) ++ ·), Deep (n + 1) l := by
    simp [Deep]
  obtain ⟨hmap, -, hxy⟩ := append_cons_inj (hdeep ls) (hdeep ms) (not_deep hc) (not_deep hd) h
  exact ⟨List.map_injective_iff.2 (List.append_right_injective _) hmap, hxy⟩

/-- A letter, a digit or an underscore. Beyond ASCII, every character counts as a letter. -/
def isWordChar (c : Char) : Bool := c.isAlphanum || c == '_' || decide (128 ≤ c.toNat)

def IsWord (s : String) : Prop := ∀ c ∈ s.toList, isWordChar c

/-- A layout of fields whose names have no line feeds. -/
def IsLayout (text : String) : Prop :=
  ∃ fs : List BitField, text = BitField.block fs ∧ ∀ f ∈ fs, OneLine f.name

lemma layout_code {indent : ℕ} {l m : String} {x y : List (List Char)} (hl : IsLayout l)
    (hm : IsLayout m)
    (h : (Line.block 1 l).map (Line.chars indent) ++ x =
      (Line.block 1 m).map (Line.chars indent) ++ y) : l = m ∧ x = y := by
  obtain ⟨fs, rfl, hfs⟩ := hl
  obtain ⟨gs, rfl, hgs⟩ := hm
  rw [BitField.layout_chars indent hfs, BitField.layout_chars indent hgs] at h
  simp only [List.cons_append, List.append_assoc, List.cons.injEq, true_and, List.nil_append] at h
  obtain ⟨hrows, hxy⟩ := deep_inj (by decide) (by decide) h
  refine ⟨String.toList_inj.1 ?_, hxy⟩
  rw [BitField.block_toList, BitField.block_toList, BitField.blockRows, BitField.blockRows, hrows]

/-! ### Sections -/

namespace Section

/-- The line of a method that is written as one line. -/
def methodRow (indent : ℕ) (m : Method) (body : String) : List Char :=
  tabs (indent + 1) ++ ("method ".toList ++ (m.text.toList ++ (" = ".toList ++
    (body.toList ++ [';']))))

/-- The lines of the update method, if there is one. -/
def updateRows (indent : ℕ) : List Update → List (List Char)
  | [] => []
  | us => (tabs (indent + 1) ++ "method update = \x7b".toList) ::
    (us.map fun u => u.text.toList ++ [',']).map (tabs (indent + 2) ++ ·) ++
      [tabs (indent + 1) ++ ['\x7d']]

lemma updateText_toList (s : Section) :
    s.updateText.toList = ['\n'].intercalate (s.updates.map fun u => u.text.toList ++ [',']) := by
  simp [updateText, String.toList_intercalate, Function.comp_def]

lemma methods_chars (indent : ℕ) {s : Section} (h : ∀ u ∈ s.updates, OneLine u.text) :
    (s.methods.flatMap methodLines).map (Line.chars indent) =
      updateRows indent s.updates ++ [methodRow indent .moveToSection s.next.text,
        methodRow indent .incrementOffset s.offsetText] := by
  have hwhole : ∀ l ∈ s.updates.map fun u => u.text.toList ++ [','], Whole l :=
    List.forall_mem_map.2 fun u hu => whole_comma (h u hu)
  have hblock := Line.block_chars indent 2 s.updateText_toList hwhole
  cases hs : s.updates with
  | nil =>
    simp [methods, hs, updateRows, methodLines, Line.chars, methodRow, Piece.keyword, Piece.plain,
      Piece.name, Piece.number]
  | cons u us =>
    rw [hs] at hblock
    simp [methods, hs, updateRows, methodLines, Line.chars, methodRow, Piece.keyword, Piece.plain,
      Piece.name, Piece.number, hblock, Method.text]

lemma methodRow_inj {indent : ℕ} {m : Method} {a b : String}
    (h : methodRow indent m a = methodRow indent m b) : a = b := by
  simpa [methodRow, String.toList_inj] using h

/-- The update method ends where the next method starts. -/
lemma updateRows_code {indent : ℕ} {us vs : List Update} {a b : String} {x y : List (List Char)}
    (h : updateRows indent us ++ methodRow indent .moveToSection a :: x =
      updateRows indent vs ++ methodRow indent .moveToSection b :: y) :
    us.map Update.text = vs.map Update.text ∧ a = b ∧ x = y := by
  have hhead (c : String) : methodRow indent .moveToSection c ≠
      tabs (indent + 1) ++ "method update = \x7b".toList := by
    simp [methodRow, Method.text]
  -- with updates on one side only, the first lines differ
  cases us with
  | nil =>
    cases vs with
    | nil =>
      obtain ⟨hrow, hxy⟩ := List.cons.inj h
      exact ⟨rfl, methodRow_inj hrow, hxy⟩
    | cons v vs => exact absurd (List.cons.inj h).1 (hhead a)
  | cons u us =>
    cases vs with
    | nil => exact absurd (List.cons.inj h).1.symm (hhead b)
    | cons v vs =>
      simp only [updateRows, List.cons_append, List.append_assoc, List.cons.injEq, true_and,
        List.nil_append] at h
      obtain ⟨hrows, h⟩ := deep_inj (by decide) (by decide) h
      obtain ⟨hrow, hxy⟩ := List.cons.inj h
      have hinj : Function.Injective fun t : String => t.toList ++ [','] :=
        fun s t hst => String.toList_inj.1 (List.append_cancel_right hst)
      refine ⟨List.map_injective_iff.2 hinj ?_, methodRow_inj hrow, hxy⟩
      simpa only [List.map_map, Function.comp_def] using hrows

/-- The methods are not taken for a layout. -/
lemma layout_ne_methods {indent : ℕ} {l a : String} {us : List Update} {x y : List (List Char)}
    (hl : IsLayout l) :
    (Line.block 1 l).map (Line.chars indent) ++ x ≠
      updateRows indent us ++ methodRow indent .moveToSection a :: y := by
  obtain ⟨fs, rfl, hfs⟩ := hl
  rw [BitField.layout_chars indent hfs]
  intro h
  cases us with
  | nil =>
    have hrow := (List.cons.inj h).1
    simp [methodRow] at hrow
  | cons u us =>
    have hrow := (List.cons.inj h).1
    simp at hrow

/-- What is written of a section. -/
def parts (s : Section) : String × ℕ × List String × List String × String × String :=
  (s.name, s.index, s.layouts, s.updates.map Update.text, s.next.text, s.offsetText)

lemma toLines_congr {s t : Section} (h : s.parts = t.parts) : s.toLines = t.toLines := by
  simp only [parts, Prod.mk.injEq] at h
  obtain ⟨hname, hindex, hlayouts, hupdates, hnext, hoffset⟩ := h
  have hempty : s.updates.isEmpty = t.updates.isEmpty := by
    simpa using congrArg List.isEmpty hupdates
  have htext : s.updateText = t.updateText := by
    have := congrArg (List.map (· ++ ",")) hupdates
    rw [List.map_map, List.map_map] at this
    exact congrArg (String.intercalate "\n") this
  simp only [toLines, methods, hname, hindex, hlayouts, hempty, htext, hnext, hoffset]

/-- The name is a word, the layouts are layouts of fields, and no other text has a line feed. -/
structure Plain (s : Section) : Prop where
  name : IsWord s.name
  layouts : ∀ l ∈ s.layouts, IsLayout l
  updates : ∀ u ∈ s.updates, OneLine u.text
  next : OneLine s.next.text

/-- The first line, without indentation. -/
def head (s : Section) : String :=
  "class " ++ s.name ++ "::Section(" ++ toString s.index ++ ") \x7b"

lemma head_toList (s : Section) :
    s.head.toList = "class ".toList ++ (s.name.toList ++ ':' :: (":Section(".toList ++
      (Nat.toDigits 10 s.index ++ ") \x7b".toList))) := by
  simp [head]

lemma toLines_chars (indent : ℕ) {s : Section} (h : s.Plain) :
    s.toLines.map (Line.chars indent) = (tabs indent ++ s.head.toList) ::
      (s.layouts.flatMap (fun l => (Line.block 1 l).map (Line.chars indent)) ++
        (updateRows indent s.updates ++ [methodRow indent .moveToSection s.next.text,
          methodRow indent .incrementOffset s.offsetText, tabs indent ++ ['\x7d']])) := by
  rw [toLines, List.map_append, List.map_append, methods_chars indent h.updates]
  simp [Line.chars, Piece.keyword, Piece.plain, Piece.name, Piece.number, head, List.map_flatMap]

lemma head_inj {s t : Section} (hs : IsWord s.name) (ht : IsWord t.name)
    (h : s.head.toList = t.head.toList) : s.name = t.name ∧ s.index = t.index := by
  rw [head_toList, head_toList] at h
  obtain ⟨hname, -, hrest⟩ := append_cons_inj hs ht (by decide) (by decide)
    (List.append_cancel_left h)
  have hdigits := List.append_cancel_right (List.append_cancel_left hrest)
  refine ⟨String.toList_inj.1 hname, ?_⟩
  rw [← Nat.ofDigitChars_ten_toDigits (n := s.index), hdigits, Nat.ofDigitChars_ten_toDigits]

/-- The lines of a section tell what is written of it and where it ends. -/
lemma code {indent : ℕ} {s t : Section} {x y : List (List Char)} (hs : s.Plain) (ht : t.Plain)
    (h : s.toLines.map (Line.chars indent) ++ x = t.toLines.map (Line.chars indent) ++ y) :
    s.parts = t.parts ∧ x = y := by
  rw [toLines_chars indent hs, toLines_chars indent ht] at h
  simp only [List.cons_append, List.append_assoc, List.nil_append, List.cons.injEq] at h
  obtain ⟨hhead, h⟩ := h
  obtain ⟨hname, hindex⟩ := head_inj hs.name ht.name (List.append_cancel_left hhead)
  obtain ⟨hlayouts, h⟩ := flatMap_code (v := id) (fun l m x y hl hm => layout_code hl hm)
    hs.layouts ht.layouts (fun l x hl => layout_ne_methods hl)
    (fun l x hl => layout_ne_methods hl) h
  obtain ⟨hupdates, hnext, h⟩ := updateRows_code h
  obtain ⟨hoffset, h⟩ := List.cons.inj h
  have hlayouts : s.layouts = t.layouts := by simpa using hlayouts
  refine ⟨?_, (List.cons.inj h).2⟩
  rw [parts, parts, hname, hindex, hlayouts, hupdates, hnext, methodRow_inj hoffset]

end Section

/-! ### Tuples -/

namespace TupleDef

/-- What is written of a tuple definition. -/
def parts (d : TupleDef) : String × String × String := (d.name, d.direction, d.body.text)

lemma toLines_congr {d e : TupleDef} (h : d.parts = e.parts) : d.toLines = e.toLines := by
  simp only [parts, Prod.mk.injEq] at h
  obtain ⟨hname, hdirection, hbody⟩ := h
  simp only [toLines, hname, hdirection, hbody]

structure Plain (d : TupleDef) : Prop where
  name : IsWord d.name
  direction : d.direction ∈ ["", "in", "out", "inout"]
  body : IsLayout d.body.text

/-- The direction in brackets, if there is one. -/
def directionText (direction : String) : String :=
  if direction.isEmpty then "" else "(" ++ direction ++ ")"

/-- The first line, without indentation. -/
def head (d : TupleDef) : String :=
  "class " ++ d.name ++ "::Tuple" ++ directionText d.direction ++ " \x7b"

lemma head_toList (d : TupleDef) :
    d.head.toList = "class ".toList ++ (d.name.toList ++ ':' :: (":Tuple".toList ++
      ((directionText d.direction).toList ++ " \x7b".toList))) := by
  simp [head]

lemma toLines_chars (indent : ℕ) (d : TupleDef) :
    d.toLines.map (Line.chars indent) = (tabs indent ++ d.head.toList) ::
      ((Line.block 1 d.body.text).map (Line.chars indent) ++ [tabs indent ++ ['\x7d']]) := by
  simp [toLines, Line.chars, Piece.keyword, Piece.plain, Piece.name, head, directionText]

lemma head_inj {d e : TupleDef} (hd : d.Plain) (he : e.Plain) (h : d.head.toList = e.head.toList) :
    d.name = e.name ∧ d.direction = e.direction := by
  rw [head_toList, head_toList] at h
  obtain ⟨hname, -, hrest⟩ := append_cons_inj hd.name he.name (by decide) (by decide)
    (List.append_cancel_left h)
  have hdir := List.append_cancel_right (List.append_cancel_left hrest)
  refine ⟨String.toList_inj.1 hname, ?_⟩
  have hinj : ∀ a ∈ ["", "in", "out", "inout"], ∀ b ∈ ["", "in", "out", "inout"],
      directionText a = directionText b → a = b := by
    decide
  exact hinj _ hd.direction _ he.direction (String.toList_inj.1 hdir)

lemma code {indent : ℕ} {d e : TupleDef} {x y : List (List Char)} (hd : d.Plain) (he : e.Plain)
    (h : d.toLines.map (Line.chars indent) ++ x = e.toLines.map (Line.chars indent) ++ y) :
    d.parts = e.parts ∧ x = y := by
  rw [toLines_chars, toLines_chars] at h
  simp only [List.cons_append, List.append_assoc, List.nil_append, List.cons.injEq] at h
  obtain ⟨hhead, h⟩ := h
  obtain ⟨hname, hdir⟩ := head_inj hd he (List.append_cancel_left hhead)
  obtain ⟨hbody, h⟩ := layout_code hd.body he.body h
  exact ⟨by rw [parts, parts, hname, hdir, hbody], (List.cons.inj h).2⟩

end TupleDef

namespace TupleInst

structure Plain (i : TupleInst) : Prop where
  type : IsWord i.type
  name : IsWord i.name

lemma text_toList (i : TupleInst) :
    i.text.toList = i.type.toList ++ ' ' :: (i.name.toList ++ [';']) := by
  simp [text]

lemma toLines_chars (indent : ℕ) (i : TupleInst) :
    i.toLines.map (Line.chars indent) = [tabs indent ++ i.text.toList] := by
  simp [toLines, Line.chars, Piece.plain, Piece.name, text]

lemma code {indent : ℕ} {i j : TupleInst} {x y : List (List Char)} (hi : i.Plain) (hj : j.Plain)
    (h : i.toLines.map (Line.chars indent) ++ x = j.toLines.map (Line.chars indent) ++ y) :
    id i = id j ∧ x = y := by
  rw [toLines_chars, toLines_chars] at h
  obtain ⟨htext, hxy⟩ := List.cons.inj h
  have htext := List.append_cancel_left htext
  rw [text_toList, text_toList] at htext
  obtain ⟨htype, -, hrest⟩ := append_cons_inj hi.type hj.type (by decide) (by decide) htext
  obtain ⟨hname, -, -⟩ := append_cons_inj hi.name hj.name (by decide) (by decide) hrest
  obtain ⟨t, n⟩ := i
  obtain ⟨u, m⟩ := j
  rw [String.toList_inj] at htype hname
  exact ⟨by rw [id, id, TupleInst.mk.injEq]; exact ⟨htype, hname⟩, hxy⟩

end TupleInst

/-! ### Lines have no line feeds -/

section

variable {indent : ℕ}

@[simp] lemma notMem_tabs (n : ℕ) : '\n' ∉ tabs n := by
  simp [tabs, List.mem_replicate]

lemma IsWord.oneLine {s : String} (h : IsWord s) : OneLine s := fun hn => by
  simpa [isWordChar] using h _ hn

lemma IsLayout.oneLine {l : String} (h : IsLayout l) :
    ∀ r ∈ (Line.block 1 l).map (Line.chars indent), '\n' ∉ r := by
  obtain ⟨fs, rfl, hfs⟩ := h
  have hwhole := BitField.whole_blockRows hfs
  rw [Line.block_chars indent 1 (BitField.block_toList fs) hwhole]
  simpa using fun r hr => (hwhole r hr).oneLine

lemma Section.offsetText_oneLine (s : Section) : OneLine s.offsetText := by
  have hsum (ws : List UInt32) :
      OneLine (String.intercalate " + " (ws.map fun w => toString w.toNat)) := by
    rw [OneLine, String.toList_intercalate]
    induction ws with
    | nil => simp
    | cons w ws ih =>
      have hdigits : '\n' ∉ Nat.toDigits 10 w.toNat := notMem_digits (by decide)
      cases ws with
      | nil => simpa using hdigits
      | cons v vs => simp_all
  unfold offsetText
  split
  · simp [OneLine]
  · exact hsum s.increments

lemma Section.updateRows_oneLine {us : List Update} (h : ∀ u ∈ us, OneLine u.text) :
    ∀ l ∈ updateRows indent us, '\n' ∉ l := by
  cases us with
  | nil => simp [updateRows]
  | cons u us =>
    refine List.forall_mem_cons.2 ⟨by simp, List.forall_mem_append.2 ⟨?_, by simp⟩⟩
    rw [List.forall_mem_map, List.forall_mem_map]
    exact fun v hv => by simpa [OneLine] using h v hv

lemma Section.Plain.oneLine {s : Section} (h : s.Plain) :
    ∀ l ∈ s.toLines.map (Line.chars indent), '\n' ∉ l := by
  have hname : '\n' ∉ s.name.toList := h.name.oneLine
  have hindex : '\n' ∉ Nat.toDigits 10 s.index := notMem_digits (by decide)
  have hnext : '\n' ∉ s.next.text.toList := h.next
  have hoffset : '\n' ∉ s.offsetText.toList := s.offsetText_oneLine
  rw [toLines_chars indent h, List.forall_mem_cons, List.forall_mem_append, List.forall_mem_append,
    List.forall_mem_flatMap]
  refine ⟨by simp [head_toList, hname, hindex], fun l hl => (h.layouts l hl).oneLine,
    updateRows_oneLine h.updates, ?_⟩
  simp [methodRow, hnext, hoffset, Method.text]

lemma TupleDef.Plain.oneLine {d : TupleDef} (h : d.Plain) :
    ∀ l ∈ d.toLines.map (Line.chars indent), '\n' ∉ l := by
  have hname : '\n' ∉ d.name.toList := h.name.oneLine
  have hdir : ∀ a ∈ ["", "in", "out", "inout"], '\n' ∉ (directionText a).toList := by decide
  rw [toLines_chars, List.forall_mem_cons, List.forall_mem_append]
  refine ⟨?_, h.body.oneLine, by simp⟩
  simp [head_toList, hname, hdir _ h.direction]

lemma TupleInst.Plain.oneLine {i : TupleInst} (h : i.Plain) :
    ∀ l ∈ i.toLines.map (Line.chars indent), '\n' ∉ l := by
  have htype : '\n' ∉ i.type.toList := h.type.oneLine
  have hname : '\n' ∉ i.name.toList := h.name.oneLine
  simp [toLines_chars, text_toList, htype, hname]

end

/-! ### Programs -/

/-- The first lines of a section and of a tuple definition differ after the name. -/
lemma Section.head_ne_tupleDef {s : Section} {d : TupleDef} (hs : IsWord s.name)
    (hd : IsWord d.name) : s.head.toList ≠ d.head.toList := by
  intro h
  rw [head_toList, TupleDef.head_toList] at h
  obtain ⟨-, -, hrest⟩ := append_cons_inj hs hd (by decide) (by decide)
    (List.append_cancel_left h)
  simp at hrest

/-- A tuple instance may start like a class, but the name ends in another way. -/
lemma class_ne_tupleInst {name rest : List Char} {i : TupleInst} (hname : ∀ c ∈ name, isWordChar c)
    (hi : i.Plain) : "class ".toList ++ (name ++ ':' :: rest) ≠ i.text.toList := by
  intro h
  rw [TupleInst.text_toList] at h
  have hclass : "class ".toList ++ (name ++ ':' :: rest) =
      "class".toList ++ ' ' :: (name ++ ':' :: rest) := by simp
  have hword : ∀ c ∈ "class".toList, isWordChar c := by simp [isWordChar]
  obtain ⟨-, -, hrest⟩ := append_cons_inj hword hi.type (by decide) (by decide)
    (hclass.symm.trans h)
  obtain ⟨-, hcolon, -⟩ := append_cons_inj hname hi.name (by decide) (by decide) hrest
  cases hcolon

namespace Program

/-- What the emitted text can say without ambiguity. -/
structure Plain (p : Program) : Prop where
  sections : ∀ s ∈ p.sections, s.Plain
  tupleDefs : ∀ d ∈ p.tupleDefs, d.Plain
  tupleInsts : ∀ i ∈ p.tupleInsts, i.Plain

/-- The lines of the tuples. -/
def tupleRows (indent : ℕ) (p : Program) : List (List Char) :=
  p.tupleDefs.flatMap (fun d => d.toLines.map (Line.chars indent)) ++
    p.tupleInsts.flatMap fun i => i.toLines.map (Line.chars indent)

lemma toLines_chars (indent : ℕ) (p : Program) :
    p.toLines.map (Line.chars indent) =
      p.sections.flatMap (fun s => s.toLines.map (Line.chars indent)) ++ p.tupleRows indent := by
  simp [toLines, tupleRows, List.map_flatMap]

lemma oneLine {indent : ℕ} {p : Program} (h : p.Plain) :
    ∀ l ∈ p.toLines.map (Line.chars indent), '\n' ∉ l := by
  rw [toLines_chars, tupleRows, List.forall_mem_append, List.forall_mem_append,
    List.forall_mem_flatMap, List.forall_mem_flatMap, List.forall_mem_flatMap]
  exact ⟨fun s hs => (h.sections s hs).oneLine, fun d hd => (h.tupleDefs d hd).oneLine,
    fun i hi => (h.tupleInsts i hi).oneLine⟩

/-- No tuple definition is taken for a tuple instance. -/
lemma tupleDef_ne_insts {indent : ℕ} {p : Program} (h : p.Plain) {d : TupleDef} (hd : d.Plain)
    (x : List (List Char)) : d.toLines.map (Line.chars indent) ++ x ≠
      p.tupleInsts.flatMap fun i => i.toLines.map (Line.chars indent) := by
  intro heq
  rw [TupleDef.toLines_chars] at heq
  have hinsts := h.tupleInsts
  cases hi : p.tupleInsts with
  | nil => simp [hi] at heq
  | cons i is =>
    rw [hi] at heq hinsts
    rw [List.flatMap_cons, TupleInst.toLines_chars] at heq
    have hline := List.append_cancel_left (List.cons.inj heq).1
    rw [TupleDef.head_toList] at hline
    exact class_ne_tupleInst hd.name (hinsts i (by simp)) hline

/-- No section is taken for a tuple. -/
lemma section_ne_tuples {indent : ℕ} {p : Program} (h : p.Plain) {s : Section} (hs : s.Plain)
    (x : List (List Char)) : s.toLines.map (Line.chars indent) ++ x ≠ p.tupleRows indent := by
  intro heq
  rw [Section.toLines_chars indent hs, tupleRows] at heq
  have hdefs := h.tupleDefs
  have hinsts := h.tupleInsts
  cases hd : p.tupleDefs with
  | nil =>
    cases hi : p.tupleInsts with
    | nil => simp [hd, hi] at heq
    | cons i is =>
      rw [hd, hi, List.flatMap_nil, List.nil_append, List.flatMap_cons,
        TupleInst.toLines_chars] at heq
      rw [hi] at hinsts
      have hline := List.append_cancel_left (List.cons.inj heq).1
      rw [Section.head_toList] at hline
      exact class_ne_tupleInst hs.name (hinsts i (by simp)) hline
  | cons d ds =>
    rw [hd, List.flatMap_cons, TupleDef.toLines_chars] at heq
    rw [hd] at hdefs
    exact Section.head_ne_tupleDef hs.name (hdefs d (by simp)).name
      (List.append_cancel_left (List.cons.inj heq).1)

/-- **Emission loses nothing**: the texts of two programs are the same only if their sections, tuple
definitions and tuple instances are written the same. -/
theorem emit_eq_iff (indent : ℕ) {p q : Program} (hp : p.Plain) (hq : q.Plain) :
    p.emit (.tabbed indent) = q.emit (.tabbed indent) ↔
      p.sections.map Section.parts = q.sections.map Section.parts ∧
      p.tupleDefs.map TupleDef.parts = q.tupleDefs.map TupleDef.parts ∧
      p.tupleInsts = q.tupleInsts := by
  constructor
  · intro h
    rw [← String.toList_inj, emit_tabbed, emit_tabbed] at h
    -- from left to right: lines, then sections, then definitions, then instances
    have hlines := lines_inj (oneLine hp) (oneLine hq) h
    rw [toLines_chars, toLines_chars] at hlines
    obtain ⟨hsections, htuples⟩ := flatMap_code (fun s t x y hs ht => Section.code hs ht)
      hp.sections hq.sections (fun s x hs => section_ne_tuples hp hs x)
      (fun s x hs => section_ne_tuples hq hs x) hlines
    obtain ⟨hdefs, hinsts⟩ := flatMap_code (fun d e x y hd he => TupleDef.code hd he)
      hp.tupleDefs hq.tupleDefs (fun d x hd => tupleDef_ne_insts hp hd x)
      (fun d x hd => tupleDef_ne_insts hq hd x) htuples
    obtain ⟨hinsts, -⟩ := flatMap_code (fun i j x y hi hj => TupleInst.code hi hj)
      hp.tupleInsts hq.tupleInsts (r := []) (s := [])
      (by simp [TupleInst.toLines_chars]) (by simp [TupleInst.toLines_chars])
      (by simpa using hinsts)
    exact ⟨hsections, hdefs, by simpa using hinsts⟩
  · rintro ⟨hsections, hdefs, hinsts⟩
    have hlines : p.toLines = q.toLines := by
      rw [toLines, toLines, flatMap_congr_map (fun s t => Section.toLines_congr) hsections,
        flatMap_congr_map (fun d e => TupleDef.toLines_congr) hdefs, hinsts]
    rw [emit, emit, hlines]

/-- A program whose texts look like indentation, brackets and classes. -/
def lookalike (n : ℕ) : Program where
  sections := [⟨"s_1", 7, List.replicate n (BitField.block []), [⟨"\tx", "\x7d"⟩], .goto "a;\x7d",
    [8, 16]⟩]
  tupleDefs := [⟨"t", "inout", .fields [⟨"struct \x7b", 3⟩]⟩]
  tupleInsts := [⟨"class", "t"⟩]
  storage := .empty

lemma plain_lookalike (n : ℕ) : (lookalike n).Plain where
  sections := List.forall_mem_singleton.2
    ⟨by simp [IsWord, isWordChar], fun l hl => ⟨[], List.eq_of_mem_replicate hl, by simp⟩,
      by simp [OneLine, Update.text], by simp [OneLine, Next.text]⟩
  tupleDefs := List.forall_mem_singleton.2
    ⟨by simp [IsWord, isWordChar], by simp, [⟨"struct \x7b", 3⟩], rfl, by simp [OneLine]⟩
  tupleInsts := List.forall_mem_singleton.2
    ⟨by simp [IsWord, isWordChar], by simp [IsWord, isWordChar]⟩

theorem emit_lookalike_ne : (lookalike 1).Plain ∧ (lookalike 2).Plain ∧
    (lookalike 1).emit (.tabbed 0) ≠ (lookalike 2).emit (.tabbed 0) :=
  ⟨plain_lookalike 1, plain_lookalike 2, fun h =>
    absurd ((emit_eq_iff 0 (plain_lookalike 1) (plain_lookalike 2)).1 h).1 (by decide)⟩

end Program

end PacketSections
