import Mathlib
import PacketSections.Proofs.Readable

/-!
Highlighting adds escape sequences and nothing else.

A piece of a line that is highlighted is written between two escape sequences. Where no text of a
program has an escape character, each escape character in the output starts one of these sequences,
and deleting them leaves the text that is written without highlighting.
-/

namespace PacketSections

/-! ### Escape sequences -/

/-- Deletes the escape sequences of the three roles and the one that ends them. -/
def eraseCodes : List Char → List Char
  | '\x1b' :: '[' :: '3' :: '4' :: 'm' :: cs => eraseCodes cs
  | '\x1b' :: '[' :: '3' :: '2' :: 'm' :: cs => eraseCodes cs
  | '\x1b' :: '[' :: '2' :: 'm' :: cs => eraseCodes cs
  | '\x1b' :: '[' :: '0' :: 'm' :: cs => eraseCodes cs
  | c :: cs => c :: eraseCodes cs
  | [] => []

def erase (text : String) : String := String.ofList (eraseCodes text.toList)

/-- There is no escape character in it. -/
def EscapeFree (text : String) : Prop := '\x1b' ∉ text.toList

instance (text : String) : Decidable (EscapeFree text) := inferInstanceAs (Decidable (_ ∉ _))

lemma EscapeFree.append {s t : String} (hs : EscapeFree s) (ht : EscapeFree t) :
    EscapeFree (s ++ t) := by
  rw [EscapeFree, String.toList_append, List.mem_append, not_or]
  exact ⟨hs, ht⟩

lemma eraseCodes_cons {c : Char} (hc : c ≠ '\x1b') (cs : List Char) :
    eraseCodes (c :: cs) = c :: eraseCodes cs := by
  rw [eraseCodes]
  all_goals
    rintro _ rfl
    exact absurd rfl hc

lemma eraseCodes_append {as : List Char} (h : '\x1b' ∉ as) (bs : List Char) :
    eraseCodes (as ++ bs) = as ++ eraseCodes bs := by
  induction as with
  | nil => rfl
  | cons a as ih =>
    rw [List.mem_cons, not_or] at h
    rw [List.cons_append, eraseCodes_cons (Ne.symm h.1), ih h.2, List.cons_append]

lemma eraseCodes_code (role : Role) (cs : List Char) :
    eraseCodes (role.code.toList ++ cs) = eraseCodes cs := by
  cases role <;> simp [Role.code, eraseCodes]

lemma eraseCodes_reset (cs : List Char) :
    eraseCodes (Role.reset.toList ++ cs) = eraseCodes cs := by
  simp [Role.reset, eraseCodes]

/-- Without its escape sequences the first text is the second one, whatever comes after it. -/
structure ErasesTo (written plain : String) : Prop where
  erased : ∀ rest, eraseCodes (written.toList ++ rest) = plain.toList ++ eraseCodes rest
  free : EscapeFree plain

namespace ErasesTo

variable {s t s' t' : String}

lemma refl (h : EscapeFree s) : ErasesTo s s where
  erased := eraseCodes_append h
  free := h

lemma append (h : ErasesTo s t) (h' : ErasesTo s' t') : ErasesTo (s ++ s') (t ++ t') where
  erased rest := by
    rw [String.toList_append, List.append_assoc, h.erased, h'.erased, String.toList_append,
      List.append_assoc]
  free := h.free.append h'.free

lemma join {α : Type} {l : List α} {f g : α → String} (h : ∀ a ∈ l, ErasesTo (f a) (g a)) :
    ErasesTo (String.join (l.map f)) (String.join (l.map g)) := by
  induction l with
  | nil => exact .refl (show EscapeFree "" by decide)
  | cons a l ih =>
    rw [List.forall_mem_cons] at h
    rw [List.map_cons, List.map_cons, String.join_cons, String.join_cons]
    exact h.1.append (ih h.2)

lemma erase_eq (h : ErasesTo s t) : erase s = t := by
  have hall := h.erased []
  rw [List.append_nil, eraseCodes, List.append_nil] at hall
  rw [erase, hall, String.ofList_toList]

end ErasesTo

lemma Role.paint_erasesTo (role : Role) {text : String} (h : EscapeFree text) :
    ErasesTo (role.paint true text) (role.paint false text) where
  erased rest := by
    simp only [paint, if_true, String.toList_append, List.append_assoc]
    rw [eraseCodes_code, eraseCodes_append h, eraseCodes_reset]
    rfl
  free := h

/-! ### Lines -/

/-- No piece has an escape character. -/
def Line.EscapeFree : Line → Prop
  | blank => True
  | pieces _ ps => ∀ p ∈ ps, PacketSections.EscapeFree p.text

lemma Line.escapeFree_pieces {level : ℕ} {ps : List Piece}
    (h : ∀ p ∈ ps, PacketSections.EscapeFree p.text) : (pieces level ps).EscapeFree :=
  h

namespace EmitConfig

lemma spaces_escapeFree (config : EmitConfig) (width : ℕ) :
    EscapeFree (config.spaces width).unit := by
  simp [EscapeFree, spaces, List.mem_replicate]

lemma pad_escapeFree {config : EmitConfig} (h : EscapeFree config.unit) (level : ℕ) :
    EscapeFree (config.pad level) := by
  have hunit : '\x1b' ∉ config.unit.toList := h
  simp [EscapeFree, pad, String.toList_join, List.mem_replicate, hunit]

end EmitConfig

lemma Piece.write_erasesTo {p : Piece} (h : EscapeFree p.text) :
    ErasesTo (p.write true) (p.write false) := by
  obtain ⟨role, text⟩ := p
  cases role with
  | none => exact .refl h
  | some role => exact role.paint_erasesTo h

lemma Line.write_erasesTo {config : EmitConfig} (hunit : PacketSections.EscapeFree config.unit)
    {l : Line} (h : l.EscapeFree) :
    ErasesTo (l.write { config with colored := true })
      (l.write { config with colored := false }) := by
  cases l with
  | blank => exact .refl (show PacketSections.EscapeFree "\n" by decide)
  | pieces level ps =>
    have hpad : ErasesTo (config.pad level) (config.pad level) :=
      .refl (EmitConfig.pad_escapeFree hunit level)
    have hpieces := ErasesTo.join fun p hp => Piece.write_erasesTo (h p hp)
    exact (hpad.append hpieces).append (.refl (by decide))

/-! ### Texts of programs -/

/-- The texts that say where the parser goes. -/
def Next.texts : Next → List String
  | done _ => []
  | goto name => [name]
  | select arms otherwise => arms.flatMap (fun a => [a.condition, a.target]) ++ [otherwise]

def Section.texts (s : Section) : List String :=
  s.name :: s.layouts ++ s.updates.flatMap (fun u => [u.target, u.value]) ++ s.next.texts

def TupleBody.texts : TupleBody → List String
  | fields fs => fs.map BitField.name
  | written text => [text]

def TupleDef.texts (d : TupleDef) : List String := d.name :: d.direction :: d.body.texts

def TupleInst.texts (i : TupleInst) : List String := [i.type, i.name]

/-- All texts that sections and tuples are made of. -/
def Program.texts (p : Program) : List String :=
  p.sections.flatMap Section.texts ++ p.tupleDefs.flatMap TupleDef.texts ++
    p.tupleInsts.flatMap TupleInst.texts

namespace EscapeFree

lemma toString (n : ℕ) : EscapeFree (ToString.toString n) := by
  simpa [EscapeFree] using notMem_digits (by decide)

lemma intercalate {s : String} (hs : EscapeFree s) {l : List String} (h : ∀ t ∈ l, EscapeFree t) :
    EscapeFree (s.intercalate l) := by
  induction l with
  | nil =>
    rw [String.intercalate_nil]
    decide
  | cons t l ih =>
    rw [List.forall_mem_cons] at h
    cases l with
    | nil =>
      rw [String.intercalate_singleton]
      exact h.1
    | cons u l =>
      rw [String.intercalate_cons_cons]
      exact (h.1.append hs).append (ih h.2)

end EscapeFree

lemma Next.text_escapeFree {next : Next} (h : ∀ s ∈ next.texts, EscapeFree s) :
    EscapeFree next.text := by
  cases next with
  | done code => exact (EscapeFree.append (by decide) (.toString _)).append (by decide)
  | goto name => exact h name (by simp [texts])
  | select arms otherwise =>
    rw [texts, List.forall_mem_append] at h
    refine EscapeFree.append ?_ (h.2 otherwise (by simp))
    have harms := h.1
    clear h
    induction arms with
    | nil => decide
    | cons a arms ih =>
      rw [List.flatMap_cons, List.forall_mem_append] at harms
      have hcond : EscapeFree a.condition := harms.1 _ (by simp)
      have htarget : EscapeFree a.target := harms.1 _ (by simp)
      have hhead : EscapeFree ("if (" ++ a.condition ++ ") " ++ a.target ++ " else ") :=
        ((((show EscapeFree "if (" by decide).append hcond).append (by decide)).append
          htarget).append (by decide)
      exact hhead.append (ih harms.2)

lemma BitField.block_escapeFree {fs : List BitField} (h : ∀ f ∈ fs, EscapeFree f.name) :
    EscapeFree (block fs) := by
  have htext {f : BitField} (hf : EscapeFree f.name) : EscapeFree ("\t" ++ f.text) :=
    .append (by decide) ((hf.append (by decide)).append (.toString _))
  have hlines : EscapeFree (lines fs) := by
    fun_induction lines fs with
    | case1 => decide
    | case2 f => exact (htext (h f (by simp))).append (by decide)
    | case3 f g fs ih =>
      rw [List.forall_mem_cons] at h
      exact ((htext h.1).append (by decide)).append (ih h.2)
  exact (EscapeFree.append (by decide) hlines).append (by decide)

lemma TupleBody.text_escapeFree {body : TupleBody} (h : ∀ s ∈ body.texts, EscapeFree s) :
    EscapeFree body.text := by
  cases body with
  | fields fs => exact BitField.block_escapeFree (List.forall_mem_map.mp h)
  | written text => exact h text (by simp [texts])

lemma Section.offsetText_escapeFree (s : Section) : EscapeFree s.offsetText := by
  unfold offsetText
  split
  · decide
  · exact .intercalate (by decide) (List.forall_mem_map.mpr fun w _ => .toString w.toNat)

/-! ### Lines of programs -/

namespace Line

lemma block_escapeFree {text : String} (h : PacketSections.EscapeFree text) (level : ℕ) :
    ∀ l ∈ block level text, l.EscapeFree := by
  unfold block Text.lines
  rw [List.map_map, List.forall_mem_map]
  intro l hl
  have hline : '\x1b' ∉ l.1 := fun hmem =>
    h (Text.mem_of_mem_cutLines l hl _ hmem).1
  dsimp only [Function.comp_apply]
  split
  · trivial
  · simpa [EscapeFree, PacketSections.EscapeFree, Piece.plain] using hline

end Line

namespace Section

variable {s : Section}

lemma updateText_escapeFree (h : ∀ t ∈ s.texts, EscapeFree t) : EscapeFree s.updateText := by
  refine .intercalate (by decide) (List.forall_mem_map.mpr fun u hu => ?_)
  have hboth : ∀ t ∈ [u.target, u.value], EscapeFree t := fun t ht => h t <| by
    simp only [texts, List.cons_append, List.mem_cons, List.mem_append, List.mem_flatMap]
    exact .inr (.inl (.inr ⟨u, hu, by simpa using ht⟩))
  have htarget : EscapeFree u.target := hboth _ (by simp)
  have hvalue : EscapeFree u.value := hboth _ (by simp)
  exact ((htarget.append (by decide)).append hvalue).append (by decide)

lemma methods_escapeFree (h : ∀ t ∈ s.texts, EscapeFree t) : ∀ m ∈ s.methods, EscapeFree m.2 := by
  have hnext : EscapeFree s.next.text := Next.text_escapeFree fun t ht => h t (by simp [texts, ht])
  unfold methods
  rw [List.forall_mem_append]
  constructor
  · split
    · simp
    · simpa using updateText_escapeFree h
  · simpa using ⟨hnext, s.offsetText_escapeFree⟩

lemma methodLines_escapeFree {m : Method × String} (h : EscapeFree m.2) :
    ∀ l ∈ methodLines m, l.EscapeFree := by
  obtain ⟨method, body⟩ := m
  cases method with
  | update =>
    rw [methodLines, List.cons_append, List.forall_mem_cons, List.forall_mem_append]
    exact ⟨Line.escapeFree_pieces (by decide), Line.block_escapeFree h 2,
      List.forall_mem_singleton.mpr (Line.escapeFree_pieces (by decide))⟩
  | moveToSection =>
    refine List.forall_mem_singleton.mpr (Line.escapeFree_pieces ?_)
    simp +decide [Piece.keyword, Piece.plain, Piece.name, h]
  | incrementOffset =>
    refine List.forall_mem_singleton.mpr (Line.escapeFree_pieces ?_)
    simp +decide [Piece.keyword, Piece.plain, Piece.number, h]

lemma toLines_escapeFree (h : ∀ t ∈ s.texts, EscapeFree t) : ∀ l ∈ s.toLines, l.EscapeFree := by
  have hname : EscapeFree s.name := h _ (by simp [texts])
  have hindex : EscapeFree s.index.repr := .toString s.index
  have hlayouts : ∀ t ∈ s.layouts, EscapeFree t := fun t ht => h t (by simp [texts, ht])
  rw [toLines, List.forall_mem_append, List.cons_append, List.forall_mem_cons,
    List.forall_mem_append, List.forall_mem_flatMap, List.forall_mem_flatMap]
  refine ⟨⟨Line.escapeFree_pieces ?_, fun t ht => Line.block_escapeFree (hlayouts t ht) 1,
    fun m hm => methodLines_escapeFree (methods_escapeFree h m hm)⟩,
    List.forall_mem_singleton.mpr (Line.escapeFree_pieces (by decide))⟩
  simp +decide [Piece.keyword, Piece.plain, Piece.name, Piece.number, hname, hindex]

end Section

lemma TupleDef.toLines_escapeFree {d : TupleDef} (h : ∀ t ∈ d.texts, EscapeFree t) :
    ∀ l ∈ d.toLines, l.EscapeFree := by
  have hname : EscapeFree d.name := h _ (by simp [texts])
  have hdirection : EscapeFree d.direction := h _ (by simp [texts])
  have hbody : EscapeFree d.body.text :=
    TupleBody.text_escapeFree fun t ht => h t (by simp [texts, ht])
  have hbracket :
      EscapeFree (if d.direction.isEmpty then "" else "(" ++ d.direction ++ ")") := by
    split
    · decide
    · exact (EscapeFree.append (by decide) hdirection).append (by decide)
  have hkind := (EscapeFree.append (s := "::Tuple") (by decide) hbracket).append
    (t := " \x7b") (by decide)
  rw [toLines, List.cons_append, List.forall_mem_cons, List.forall_mem_append]
  refine ⟨Line.escapeFree_pieces ?_, Line.block_escapeFree hbody 1,
    List.forall_mem_singleton.mpr (Line.escapeFree_pieces (by decide))⟩
  simpa +decide [Piece.keyword, Piece.plain, Piece.name, hname] using hkind

lemma TupleInst.toLines_escapeFree {i : TupleInst} (h : ∀ t ∈ i.texts, EscapeFree t) :
    ∀ l ∈ i.toLines, l.EscapeFree := by
  have htype : EscapeFree (i.type ++ " ") := (h _ (by simp [texts])).append (by decide)
  have hname : EscapeFree i.name := h _ (by simp [texts])
  refine List.forall_mem_singleton.mpr (Line.escapeFree_pieces ?_)
  simp +decide [Piece.plain, Piece.name, htype, hname]

namespace Program

lemma toLines_escapeFree {p : Program} (h : ∀ t ∈ p.texts, EscapeFree t) :
    ∀ l ∈ p.toLines, l.EscapeFree := by
  simp only [texts, List.forall_mem_append, List.forall_mem_flatMap] at h
  obtain ⟨⟨hsections, hdefs⟩, hinsts⟩ := h
  simp only [toLines, List.forall_mem_append, List.forall_mem_flatMap]
  exact ⟨⟨fun s hs => Section.toLines_escapeFree (hsections s hs),
    fun d hd => TupleDef.toLines_escapeFree (hdefs d hd)⟩,
    fun i hi => TupleInst.toLines_escapeFree (hinsts i hi)⟩

/-- **Highlighting can be taken away.** Where no text has an escape character, deleting the escape
sequences from the highlighted output gives the output without highlighting, which has no escape
character. This holds at any level and for any unit of indentation that has no escape character
itself, as the tabulator has none and spaces have none. -/
theorem erase_emit_colored :
    (∀ (config : EmitConfig) (p : Program), EscapeFree config.unit →
      (∀ t ∈ p.texts, EscapeFree t) →
      erase (p.emit { config with colored := true }) = p.emit { config with colored := false } ∧
      EscapeFree (p.emit { config with colored := false })) ∧
    EscapeFree ({} : EmitConfig).unit ∧
    ∀ (config : EmitConfig) (width : ℕ), EscapeFree (config.spaces width).unit := by
  refine ⟨fun config p hunit hp => ?_, by decide, EmitConfig.spaces_escapeFree⟩
  have hemit : ErasesTo (p.emit { config with colored := true })
      (p.emit { config with colored := false }) :=
    .join fun l hl => Line.write_erasesTo hunit (toLines_escapeFree hp l hl)
  exact ⟨hemit.erase_eq, hemit.free⟩

/-- A program whose texts look like the ends of escape sequences. -/
def garish : Program where
  sections := [⟨"[34m", 0, ["struct \x7b\n\n\ta : 8\r\n\x7d"], [⟨"x\n[0m", "m"⟩],
    .select [⟨"[2m == 1", "[32m"⟩] "[", [8, 16]⟩]
  tupleDefs := [⟨"[0m", "in", .fields [⟨"[34", 1⟩, ⟨"m", 2⟩]⟩]
  tupleInsts := [⟨"[0m", "2m"⟩]
  storage := .empty

/-- Indented by spaces, three levels deep. -/
theorem erase_emit_garish :
    erase (garish.emit (({ indent := 3, colored := true } : EmitConfig).spaces 4)) =
      garish.emit (({ indent := 3 } : EmitConfig).spaces 4) := by
  have hunit : EscapeFree (({ indent := 3 } : EmitConfig).spaces 4).unit :=
    erase_emit_colored.2.2 _ 4
  have htexts : ∀ t ∈ garish.texts, EscapeFree t := by decide
  exact (erase_emit_colored.1 _ garish hunit htexts).1

end Program

end PacketSections
