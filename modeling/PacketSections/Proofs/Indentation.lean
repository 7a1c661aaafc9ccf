import Mathlib
import PacketSections.Proofs.Readable

/-!
Indentation moves all lines by the same amount.

The level of the outermost lines is added to that of every line, and blank lines are not indented.
So a program that is written at some level is the program written at level zero, with each line that
is not empty moved to the right. This is about the lines of the text: a name or a direction with a
line feed would go on in a line that is not indented. Layouts, bodies and updates may have any line
feeds, since they are cut into lines before they are indented.
-/

namespace PacketSections

/-! ### Texts moved to the right -/

/-- A line moved to the right by a padding. An empty line stays empty. -/
def shiftLine (pad line : List Char) : List Char := if line = [] then [] else pad ++ line

/-- A text, each line of which is moved to the right. Lines are what is between line feeds. -/
def shiftText (pad text : String) : String :=
  String.ofList (['\n'].intercalate ((text.toList.splitOn '\n').map (shiftLine pad.toList)))

/-- The lines of a text that ends with a line feed, and the empty line after it. -/
lemma splitOn_lines {ls : List (List Char)} (h : ∀ l ∈ ls, '\n' ∉ l) :
    (ls.flatMap fun l => l ++ ['\n']).splitOn '\n' = ls ++ [[]] := by
  induction ls with
  | nil => simp
  | cons l ls ih =>
    rw [List.forall_mem_cons] at h
    rw [List.flatMap_cons, List.append_assoc, List.singleton_append,
      List.splitOn_append_cons_self_of_not_mem h.1, ih h.2, List.cons_append]

lemma intercalate_lines (ls : List (List Char)) :
    ['\n'].intercalate (ls ++ [[]]) = ls.flatMap fun l => l ++ ['\n'] := by
  induction ls with
  | nil => simp
  | cons l ls ih =>
    rw [List.cons_append, List.intercalate_cons_of_ne_nil (by simp), ih, List.flatMap_cons]

/-- Moving a text to the right moves its lines. -/
lemma shiftText_lines (pad : String) {text : String} {ls : List (List Char)}
    (htext : text.toList = ls.flatMap fun l => l ++ ['\n']) (h : ∀ l ∈ ls, '\n' ∉ l) :
    (shiftText pad text).toList = (ls.map (shiftLine pad.toList)).flatMap fun l => l ++ ['\n'] := by
  have hempty : shiftLine pad.toList [] = [] := rfl
  rw [shiftText, String.toList_ofList, htext, splitOn_lines h, List.map_append, List.map_singleton,
    hempty, intercalate_lines]

/-! ### Texts on one line -/

namespace OneLine

instance (s : String) : Decidable (OneLine s) := inferInstanceAs (Decidable (_ ∉ _))

lemma append {s t : String} (hs : OneLine s) (ht : OneLine t) : OneLine (s ++ t) := by
  rw [OneLine, String.toList_append, List.mem_append, not_or]
  exact ⟨hs, ht⟩

lemma join {l : List String} (h : ∀ s ∈ l, OneLine s) : OneLine (String.join l) := by
  rw [OneLine, String.toList_join, List.mem_flatMap]
  rintro ⟨s, hs, hmem⟩
  exact h s hs hmem

lemma toString (n : ℕ) : OneLine (ToString.toString n) := by
  simpa [OneLine] using notMem_digits (by decide)

end OneLine

namespace EmitConfig

lemma spaces_oneLine (config : EmitConfig) (width : ℕ) : OneLine (config.spaces width).unit := by
  simp [OneLine, spaces, List.mem_replicate]

/-- That many units of indentation. -/
def margin (config : EmitConfig) (n : ℕ) : String := String.join (List.replicate n config.unit)

lemma margin_oneLine {config : EmitConfig} (h : OneLine config.unit) (n : ℕ) :
    OneLine (config.margin n) :=
  .join fun _ hs => List.eq_of_mem_replicate hs ▸ h

lemma pad_eq_margin (config : EmitConfig) (level : ℕ) :
    config.pad level = config.margin (config.indent + level) :=
  rfl

lemma margin_add (config : EmitConfig) (m n : ℕ) :
    config.margin (m + n) = config.margin m ++ config.margin n := by
  rw [margin, List.replicate_add, String.join_append]
  rfl

end EmitConfig

/-- Highlighting puts something around a piece, and no line feeds. -/
lemma Piece.write_eq (colored : Bool) (p : Piece) :
    ∃ before after, OneLine before ∧ OneLine after ∧
      p.write colored = before ++ p.text ++ after := by
  obtain ⟨role, text⟩ := p
  have hplain : ∃ before after, OneLine before ∧ OneLine after ∧ text = before ++ text ++ after :=
    ⟨"", "", by decide, by decide, by simp⟩
  cases role with
  | none => exact hplain
  | some role =>
    cases colored with
    | false => exact hplain
    | true => exact ⟨role.code, Role.reset, by cases role <;> decide, by decide, rfl⟩

lemma Piece.write_oneLine (colored : Bool) {p : Piece} (h : OneLine p.text) :
    OneLine (p.write colored) := by
  obtain ⟨before, after, hbefore, hafter, hwrite⟩ := p.write_eq colored
  rw [hwrite]
  exact (hbefore.append h).append hafter

lemma Piece.write_ne_empty (colored : Bool) {p : Piece} (h : p.text ≠ "") :
    p.write colored ≠ "" := by
  obtain ⟨before, after, -, -, hwrite⟩ := p.write_eq colored
  simp [hwrite, h]

/-! ### Lines -/

namespace Line

/-- What is written of a line, without its end. -/
def row (config : EmitConfig) : Line → String
  | blank => ""
  | pieces level ps => config.pad level ++ String.join (ps.map (Piece.write config.colored))

lemma write_eq_row (config : EmitConfig) (l : Line) : l.write config = l.row config ++ "\n" := by
  cases l <;> rfl

/-- It is one line of the text, and empty only if it is blank. -/
def Unbroken : Line → Prop
  | blank => True
  | pieces _ ps => (∀ p ∈ ps, OneLine p.text) ∧ ∃ p ∈ ps, p.text ≠ ""

lemma unbroken_pieces {level : ℕ} {ps : List Piece} (h : ∀ p ∈ ps, OneLine p.text)
    (hne : ∃ p ∈ ps, p.text ≠ "") : (pieces level ps).Unbroken :=
  ⟨h, hne⟩

lemma row_oneLine {config : EmitConfig} (hunit : OneLine config.unit) {l : Line}
    (h : l.Unbroken) : OneLine (l.row config) := by
  cases l with
  | blank =>
    show OneLine ""
    decide
  | pieces level ps =>
    have hpieces : ∀ s ∈ ps.map (Piece.write config.colored), OneLine s :=
      List.forall_mem_map.mpr fun p hp => Piece.write_oneLine _ (h.1 p hp)
    exact (EmitConfig.margin_oneLine hunit _).append (.join hpieces)

/-- A line at some level of the outermost lines is the one at level zero, moved to the right. -/
lemma row_shift (config : EmitConfig) (n : ℕ) {l : Line} (h : l.Unbroken) :
    (l.row { config with indent := n }).toList =
      shiftLine (config.margin n).toList (l.row { config with indent := 0 }).toList := by
  cases l with
  | blank => rfl
  | pieces level ps =>
    obtain ⟨p, hp, hne⟩ := h.2
    -- without padding there is still a piece on the line, which is therefore moved
    have hrow : ((pieces level ps).row { config with indent := 0 }).toList ≠ [] := by
      intro hnil
      simp only [row, String.toList_append, String.toList_join, List.append_eq_nil_iff,
        List.flatMap_eq_nil_iff, List.forall_mem_map, String.toList_eq_nil_iff] at hnil
      exact Piece.write_ne_empty config.colored hne (hnil.2 p hp)
    have hpad : EmitConfig.pad { config with indent := n } level =
        config.margin n ++ EmitConfig.pad { config with indent := 0 } level := by
      rw [EmitConfig.pad_eq_margin, EmitConfig.pad_eq_margin, Nat.zero_add]
      exact config.margin_add n level
    rw [shiftLine, if_neg hrow, row, row, hpad, String.append_assoc, String.toList_append]

/-- A text is cut into lines that are not broken, whatever it is. -/
lemma block_unbroken (level : ℕ) (text : String) : ∀ l ∈ block level text, l.Unbroken := by
  unfold block Text.lines
  rw [List.map_map, List.forall_mem_map]
  intro l hl
  have hline : '\n' ∉ l.1 := fun hmem => (Text.mem_of_mem_cutLines l hl _ hmem).2 rfl
  dsimp only [Function.comp_apply]
  split
  · trivial
  · next hne =>
    refine unbroken_pieces ?_ ?_
    · simpa [OneLine, Piece.plain] using hline
    · simpa [Piece.plain] using hne

end Line

/-! ### Programs -/

/-- The name and the place to go to are on one line. Layouts and updates may have several lines. -/
structure Section.Unbroken (s : Section) : Prop where
  name : OneLine s.name
  next : OneLine s.next.text

/-- The name and the direction are on one line. The body may have several lines. -/
structure TupleDef.Unbroken (d : TupleDef) : Prop where
  name : OneLine d.name
  direction : OneLine d.direction

structure TupleInst.Unbroken (i : TupleInst) : Prop where
  type : OneLine i.type
  name : OneLine i.name

structure Program.Unbroken (p : Program) : Prop where
  sections : ∀ s ∈ p.sections, s.Unbroken
  tupleDefs : ∀ d ∈ p.tupleDefs, d.Unbroken
  tupleInsts : ∀ i ∈ p.tupleInsts, i.Unbroken

namespace Section

variable {s : Section}

/-- Only the method of updates is written as a block. -/
lemma methodLines_unbroken {m : Method × String} (h : m.1 ≠ .update → OneLine m.2) :
    ∀ l ∈ methodLines m, l.Unbroken := by
  obtain ⟨method, body⟩ := m
  cases method with
  | update =>
    rw [methodLines, List.cons_append, List.forall_mem_cons, List.forall_mem_append,
      List.forall_mem_singleton]
    exact ⟨Line.unbroken_pieces (by decide) (by decide), Line.block_unbroken 2 body,
      Line.unbroken_pieces (by decide) (by decide)⟩
  | moveToSection =>
    have hbody : OneLine body := h (by simp)
    refine List.forall_mem_singleton.mpr (Line.unbroken_pieces ?_ ⟨.plain ";", by simp, by decide⟩)
    simp +decide [Piece.keyword, Piece.plain, Piece.name, hbody]
  | incrementOffset =>
    have hbody : OneLine body := h (by simp)
    refine List.forall_mem_singleton.mpr (Line.unbroken_pieces ?_ ⟨.plain ";", by simp, by decide⟩)
    simp +decide [Piece.keyword, Piece.plain, Piece.number, hbody]

lemma methods_oneLine (h : s.Unbroken) : ∀ m ∈ s.methods, m.1 ≠ .update → OneLine m.2 := by
  unfold methods
  rw [List.forall_mem_append]
  constructor
  · split <;> simp
  · simpa using ⟨h.next, s.offsetText_oneLine⟩

lemma toLines_unbroken (h : s.Unbroken) : ∀ l ∈ s.toLines, l.Unbroken := by
  have hindex : OneLine s.index.repr := .toString s.index
  rw [toLines, List.forall_mem_append, List.cons_append, List.forall_mem_cons,
    List.forall_mem_append, List.forall_mem_flatMap, List.forall_mem_flatMap,
    List.forall_mem_singleton]
  refine ⟨⟨Line.unbroken_pieces ?_ ⟨.keyword "class", by simp, by decide⟩,
    fun t _ => Line.block_unbroken 1 t,
    fun m hm => methodLines_unbroken (methods_oneLine h m hm)⟩,
    Line.unbroken_pieces (by decide) (by decide)⟩
  simp +decide [Piece.keyword, Piece.plain, Piece.name, Piece.number, h.name, hindex]

end Section

lemma TupleDef.toLines_unbroken {d : TupleDef} (h : d.Unbroken) : ∀ l ∈ d.toLines, l.Unbroken := by
  have hbracket : OneLine (directionText d.direction) := by
    unfold directionText
    split
    · decide
    · exact (OneLine.append (by decide) h.direction).append (by decide)
  have hkind : OneLine ("::Tuple" ++ directionText d.direction ++ " \x7b") :=
    (OneLine.append (by decide) hbracket).append (by decide)
  rw [toLines, List.cons_append, List.forall_mem_cons, List.forall_mem_append,
    List.forall_mem_singleton]
  refine ⟨Line.unbroken_pieces ?_ ⟨.keyword "class", by simp, by decide⟩,
    Line.block_unbroken 1 d.body.text, Line.unbroken_pieces (by decide) (by decide)⟩
  simpa +decide [Piece.keyword, Piece.plain, Piece.name, h.name, directionText] using hkind

lemma TupleInst.toLines_unbroken {i : TupleInst} (h : i.Unbroken) :
    ∀ l ∈ i.toLines, l.Unbroken := by
  have htype : OneLine (i.type ++ " ") := h.type.append (by decide)
  refine List.forall_mem_singleton.mpr (Line.unbroken_pieces ?_ ⟨.plain ";", by simp, by decide⟩)
  simp +decide [Piece.plain, Piece.name, htype, h.name]

namespace Program

lemma toLines_unbroken {p : Program} (h : p.Unbroken) : ∀ l ∈ p.toLines, l.Unbroken := by
  simp only [toLines, List.forall_mem_append, List.forall_mem_flatMap]
  exact ⟨⟨fun s hs => Section.toLines_unbroken (h.sections s hs),
    fun d hd => TupleDef.toLines_unbroken (h.tupleDefs d hd)⟩,
    fun i hi => TupleInst.toLines_unbroken (h.tupleInsts i hi)⟩

lemma emit_rows (config : EmitConfig) (p : Program) :
    (p.emit config).toList =
      (p.toLines.map fun l => (l.row config).toList).flatMap fun l => l ++ ['\n'] := by
  simp [emit, String.toList_join, List.flatMap_map, Line.write_eq_row]

/-- **Indentation is uniform.** What is written at level `n` is what is written at level zero, with
`n` units in front of each line that is not empty. This holds with and without highlighting, and
for any unit of indentation that has no line feed, as the tabulator has none and spaces have
none. -/
theorem emit_indent :
    (∀ (config : EmitConfig) (p : Program) (n : ℕ), OneLine config.unit → p.Unbroken →
      p.emit { config with indent := n } =
        shiftText (String.join (List.replicate n config.unit))
          (p.emit { config with indent := 0 })) ∧
    OneLine ({} : EmitConfig).unit ∧
    ∀ (config : EmitConfig) (width : ℕ), OneLine (config.spaces width).unit := by
  refine ⟨fun config p n hunit hp => ?_, by decide, EmitConfig.spaces_oneLine⟩
  have hlines := toLines_unbroken hp
  have hunit : OneLine ({ config with indent := 0 } : EmitConfig).unit := hunit
  have hrows : ∀ r ∈ p.toLines.map fun l => (l.row { config with indent := 0 }).toList,
      '\n' ∉ r :=
    List.forall_mem_map.mpr fun l hl => Line.row_oneLine hunit (hlines l hl)
  have hshift : p.toLines.map (fun l => (l.row { config with indent := n }).toList) =
      (p.toLines.map fun l => (l.row { config with indent := 0 }).toList).map
        (shiftLine (config.margin n).toList) := by
    rw [List.map_map]
    exact List.map_congr_left fun l hl => Line.row_shift config n (hlines l hl)
  -- both texts are rows with their ends, and those at level zero are its lines
  rw [← String.toList_inj, emit_rows, hshift]
  exact (shiftText_lines _ (emit_rows _ p) hrows).symm

/-- A program whose blocks have blank lines and ends of lines of both kinds. -/
def ragged : Program where
  sections := [⟨"start", 1, ["struct \x7b\n\n\ta : 8\r\n\r\n\x7d\r", "", "\n"],
    [⟨"x\n\n  y", "1\r\r\n"⟩], .select [⟨"k == 1", "b"⟩] "accept", [8, 16]⟩]
  tupleDefs := [⟨"t", "in", .written "\r\n\n a\nb\n"⟩, ⟨"u", "", .fields [⟨"c\nd", 2⟩]⟩]
  tupleInsts := [⟨"", ""⟩]
  storage := .empty

lemma ragged_unbroken : ragged.Unbroken where
  sections := List.forall_mem_singleton.mpr ⟨by decide, by decide⟩
  tupleDefs := by
    rw [ragged, List.forall_mem_cons, List.forall_mem_singleton]
    exact ⟨⟨by decide, by decide⟩, by decide, by decide⟩
  tupleInsts := List.forall_mem_singleton.mpr ⟨by decide, by decide⟩

/-- Highlighted and indented by spaces, three levels deep. -/
theorem emit_ragged_indent : ragged.Unbroken ∧
    ragged.emit (({ indent := 3, colored := true } : EmitConfig).spaces 2) =
      shiftText "      " (ragged.emit (({ indent := 0, colored := true } : EmitConfig).spaces 2)) :=
  ⟨ragged_unbroken, emit_indent.1 (({ colored := true } : EmitConfig).spaces 2) ragged 3
    (emit_indent.2.2 _ 2) ragged_unbroken⟩

end Program

end PacketSections
