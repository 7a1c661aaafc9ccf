import Mathlib
import PacketSections.Command.Run
import PacketSections.Proofs.Chains
import PacketSections.Proofs.FirstError
import PacketSections.Proofs.TupleTable

/-!
Batches of parsers, and how a run of the command ends.

The parsers of a batch are lowered one by one, and what becomes of one does not depend on the
others. Being strict drops programs, but never changes what is reported. Whether programs are
written out or only checked, a run ends in the same way, and it ends well exactly when each parser
has its text in the output.
-/

namespace PacketSections

open Json Lowering

/-! ### One parser -/

namespace ParserUnit

/-- The name and the program of a parser, unless it cannot be lowered. If `strict`, there must not
be a warning either. -/
def kept? (strict : Bool) (u : ParserUnit) : Option (String × Program) :=
  match u.lower.result with
  | .ok p =>
    if strict && u.lower.diagnostics.any Diagnostic.isWarning then none else some (u.name, p)
  | .error _ => none

/-- Whether anything was reported about a parser. -/
def isReported (u : ParserUnit) : Bool := !u.lower.diagnostics.isEmpty

/-- A parser that cannot be lowered is reported. -/
lemma isReported_of_error {u : ParserUnit} {e : LowerError} (h : u.lower.result = .error e) :
    u.isReported = true := by
  have hv : Visits u.facts (u.constructs u.facts) u.lower := visits_lower u
  unfold isReported
  generalize u.lower = pass at h hv
  generalize u.constructs u.facts = cs at hv
  cases hv with
  | all => cases h
  | upTo => simp

/-- So is one that is dropped for a warning. -/
lemma isReported_of_dropped {strict : Bool} {u : ParserUnit} (h : u.kept? strict = none) :
    u.isReported = true := by
  unfold kept? at h
  split at h
  · split at h
    · next hwarn =>
      obtain ⟨d, hd, -⟩ := List.any_eq_true.mp (Bool.and_eq_true_iff.mp hwarn).2
      have hne := List.ne_nil_of_mem hd
      simpa [isReported] using hne
    · cases h
  · next hfail => exact isReported_of_error hfail

/-- Being strict only drops programs. -/
lemma kept?_strict {u : ParserUnit} {o : String × Program} (h : u.kept? true = some o) :
    u.kept? false = some o := by
  unfold kept? at h ⊢
  split at h
  · split at h
    · cases h
    · simpa using h
  · cases h

/-- A parser that is lowered is kept as what it is lowered to, if it is kept. -/
lemma kept?_of_ok {u : ParserUnit} {p : Program} (h : u.lower.result = .ok p) (strict : Bool) :
    u.kept? strict = none ∨ u.kept? strict = some (u.name, p) := by
  simp only [kept?, h]
  split
  · exact .inl rfl
  · exact .inr rfl

lemma exists_of_kept? {strict : Bool} {u : ParserUnit} (h : u.kept? strict ≠ none) :
    ∃ p, u.lower.result = .ok p := by
  unfold kept? at h
  split at h
  · next p hp => exact ⟨p, hp⟩
  · exact absurd rfl h

end ParserUnit

namespace Command

variable (printer : Report.Printer) (strict : Bool)

lemma lowerOne_output (u : ParserUnit) :
    (lowerOne printer strict u).output = u.kept? strict := by
  cases hr : u.lower.result with
  | error e => simp only [lowerOne, ParserUnit.kept?, hr]
  | ok p =>
    simp only [lowerOne, ParserUnit.kept?, hr]
    split <;> rfl

lemma lowerOne_report (u : ParserUnit) :
    (lowerOne printer strict u).report =
      if u.isReported then some (printer.render u.lower.diagnostics) else none := by
  cases hr : u.lower.result with
  | error e =>
    rw [if_pos (ParserUnit.isReported_of_error hr)]
    simp only [lowerOne, hr]
  | ok p =>
    have hreport : (lowerOne printer strict u).report = if u.lower.diagnostics.isEmpty then none
        else some (printer.render u.lower.diagnostics) := by
      simp only [lowerOne, hr]
      split <;> rfl
    rw [hreport, ParserUnit.isReported]
    cases u.lower.diagnostics.isEmpty <;> rfl

/-! ### Batches -/

lemma lowerAll_outputs (units : List ParserUnit) :
    (lowerAll printer strict units).outputs = units.filterMap (ParserUnit.kept? strict) := by
  have houtput : UnitResult.output ∘ lowerOne printer strict = ParserUnit.kept? strict :=
    funext (lowerOne_output printer strict)
  simp only [lowerAll, List.filterMap_map, houtput]

lemma lowerAll_reports (units : List ParserUnit) :
    (lowerAll printer strict units).reports =
      (units.filter ParserUnit.isReported).map fun u => printer.render u.lower.diagnostics := by
  have hreport : UnitResult.report ∘ lowerOne printer strict = fun u =>
      if u.isReported then some (printer.render u.lower.diagnostics) else none :=
    funext (lowerOne_report printer strict)
  simp only [lowerAll, List.filterMap_map, hreport]
  rw [← List.filterMap_eq_map, List.filterMap_filter]
  rfl

lemma lowerAll_failed_iff (units : List ParserUnit) :
    (lowerAll printer strict units).failed = true ↔ ∃ u ∈ units, u.kept? strict = none := by
  unfold lowerAll
  simp [lowerOne_output]

lemma lowerAll_append (us vs : List ParserUnit) :
    (lowerAll printer strict (us ++ vs)).outputs =
        (lowerAll printer strict us).outputs ++ (lowerAll printer strict vs).outputs ∧
      (lowerAll printer strict (us ++ vs)).reports =
        (lowerAll printer strict us).reports ++ (lowerAll printer strict vs).reports ∧
      (lowerAll printer strict (us ++ vs)).failed =
        ((lowerAll printer strict us).failed || (lowerAll printer strict vs).failed) := by
  simp [lowerAll]

lemma lowerAll_outputs_sublist (units : List ParserUnit) :
    (lowerAll printer true units).outputs.Sublist (lowerAll printer false units).outputs := by
  rw [lowerAll_outputs, lowerAll_outputs]
  induction units with
  | nil => exact .slnil
  | cons u units ih =>
    rw [List.filterMap_cons, List.filterMap_cons]
    cases hs : u.kept? true with
    | some o =>
      rw [ParserUnit.kept?_strict hs]
      exact ih.cons_cons o
    | none =>
      cases u.kept? false with
      | some o => exact ih.cons o
      | none => exact ih

/-! ### Texts -/

variable {strict} {config : EmitConfig}

/-- The text of a program is not empty: there is always the tuple of the extracted bits. -/
lemma length_emit_pos {u : ParserUnit} {p : Program} (h : u.lower.result = .ok p)
    (config : EmitConfig) : 0 < (p.emit config).length := by
  obtain ⟨sets, -, -, hdefs, -⟩ := lower_tuples h
  have hmem : extractsTuple ∈ p.tupleDefs := by
    rw [hdefs]
    exact List.mem_append_right _ (List.mem_cons_self ..)
  obtain ⟨line, hline, hpos⟩ : ∃ line ∈ extractsTuple.toLines, 0 < (line.write config).length := by
    refine ⟨_, List.mem_cons_self .., ?_⟩
    simp only [Line.write, String.length_append]
    exact Nat.lt_add_left _ (by decide)
  have hlines : line ∈ p.toLines :=
    List.mem_append_left _ (List.mem_append_right _ (List.mem_flatMap.mpr ⟨_, hmem, hline⟩))
  have hle : (line.write config).length ≤ (p.emit config).length := by
    unfold Program.emit
    rw [String.length_join, List.map_map]
    exact List.le_sum_of_mem (List.mem_map_of_mem hlines)
  exact Nat.lt_of_lt_of_le hpos hle

/-- The texts of the programs that are kept, one after the other. -/
def keptText (strict : Bool) (config : EmitConfig) (units : List ParserUnit) : String :=
  String.join ((units.filterMap (ParserUnit.kept? strict)).map fun o => o.2.emit config)

lemma keptText_cons_none {u : ParserUnit} (h : u.kept? strict = none) (units : List ParserUnit) :
    keptText strict config (u :: units) = keptText strict config units := by
  simp only [keptText, List.filterMap_cons, h]

lemma keptText_cons_some {u : ParserUnit} {name : String} {p : Program}
    (h : u.kept? strict = some (name, p)) (units : List ParserUnit) :
    keptText strict config (u :: units) = p.emit config ++ keptText strict config units := by
  simp only [keptText, List.filterMap_cons, h, List.map_cons, String.join_cons]

lemma length_keptText_le {units : List ParserUnit} {programs : List Program}
    (h : List.Forall₂ (fun u p => u.lower.result = .ok p) units programs) (strict : Bool)
    (config : EmitConfig) : (keptText strict config units).length ≤
      (String.join (programs.map (Program.emit config))).length := by
  induction h with
  | nil => exact Nat.le_refl _
  | @cons u p units programs hu _ ih =>
    rw [List.map_cons, String.join_cons, String.length_append]
    rcases u.kept?_of_ok hu strict with hnone | hsome
    · rw [keptText_cons_none hnone]
      omega
    · rw [keptText_cons_some hsome, String.length_append]
      omega

/-- The texts that are kept are those of all parsers only if none is dropped. -/
lemma keptText_eq_iff {units : List ParserUnit} {programs : List Program}
    (h : List.Forall₂ (fun u p => u.lower.result = .ok p) units programs) :
    keptText strict config units = String.join (programs.map (Program.emit config)) ↔
      ∀ u ∈ units, u.kept? strict ≠ none := by
  induction h with
  | nil => simp [keptText]
  | @cons u p units programs hu hrest ih =>
    rw [List.map_cons, String.join_cons, List.forall_mem_cons, ← ih]
    rcases u.kept?_of_ok hu strict with hnone | hsome
    · -- the text of this parser is missing, and what is left is too short
      have hpos := length_emit_pos hu config
      have hle := length_keptText_le hrest strict config
      constructor
      · intro heq
        have hlen := congrArg String.length heq
        rw [keptText_cons_none hnone, String.length_append] at hlen
        omega
      · rintro ⟨hkept, -⟩
        exact absurd hnone hkept
    · rw [keptText_cons_some hsome]
      have hkept : u.kept? strict ≠ none := by
        rw [hsome]
        simp
      constructor
      · intro heq
        exact ⟨hkept, (String.append_right_inj _).mp heq⟩
      · rintro ⟨-, heq⟩
        rw [heq]

/-- No parser is dropped exactly when all have their texts. -/
lemma forall_kept_iff {units : List ParserUnit} :
    (∀ u ∈ units, u.kept? strict ≠ none) ↔ ∃ programs : List Program,
      List.Forall₂ (fun u p => u.lower.result = .ok p) units programs ∧
        keptText strict config units = String.join (programs.map (Program.emit config)) := by
  constructor
  · intro hkept
    obtain ⟨programs, hprograms⟩ := List.exists_forall₂_iff.mpr fun u hu =>
      ParserUnit.exists_of_kept? (hkept u hu)
    exact ⟨programs, hprograms, (keptText_eq_iff hprograms).mpr hkept⟩
  · rintro ⟨programs, hprograms, htext⟩
    exact (keptText_eq_iff hprograms).mp htext

/-! ### Runs -/

section

variable {σ : Type} (files : Files (StateM σ)) (r : Request) (s : σ)

/-- How a run ends that starts from the files in `s`, and what it leaves of them. -/
def runOn : Outcome × σ := (run files r).run s

def readOn : Except String Input × σ := (readInput files r).run s

def writeOn (path text : String) (s : σ) : Except FileError Unit × σ :=
  (files.write path text).run s

/-- What becomes of the parsers that were read. -/
def batch (r : Request) (input : Input) : BatchResult :=
  lowerAll ⟨input.source, input.source.bind fun _ => r.source, r.colored⟩ r.strict input.units

/-- How the text is laid out. -/
def Request.layout (r : Request) : EmitConfig := ⟨r.indent, "\t", r.colored⟩

/-- The text that goes to the standard output or to a file. -/
def emitted (r : Request) (input : Input) : String :=
  String.join ((batch r input).outputs.map fun o => o.2.emit r.layout)

/-- The text can be written, if it goes to a file. -/
def WriteSucceeds : Prop :=
  ∀ path input, r.output = some path → (readOn files r s).1 = .ok input →
    (writeOn files path (emitted r input) (readOn files r s).2).1 = .ok ()

/-- The status after something was read, or was not. -/
def status (strict : Bool) : Except String Input → ℕ
  | .error _ => 1
  | .ok input => if input.units.any fun u => (u.kept? strict).isNone then 1 else 0

/-- What follows when the parsers have been read. -/
def finishOn (input : Input) (s : σ) : Outcome × σ :=
  let stderr :=
    logText (logLevel r.verbose) (batch r input).log ++ String.join (batch r input).reports
  let exit := status r.strict (.ok input)
  match r.action, r.output with
  | .check, _ => (⟨exit, "", stderr⟩, s)
  | .lower, none => (⟨exit, emitted r input, stderr⟩, s)
  | .lower, some path =>
    match writeOn files path (emitted r input) s with
    | (.ok (), s) => (⟨exit, "", stderr⟩, s)
    | (.error e, s) =>
      (⟨1, "", stderr ++ "error: failed to write '" ++ path ++ "': " ++ e.message ++ "\n"⟩, s)

variable {files r s}

lemma status_batch (r : Request) (input : Input) :
    (if (batch r input).failed then 1 else 0) = status r.strict (.ok input) := by
  have hfailed : (batch r input).failed =
      input.units.any fun u => (u.kept? r.strict).isNone := by
    rw [Bool.eq_iff_iff, batch, lowerAll_failed_iff]
    simp
  rw [hfailed]
  rfl

lemma status_eq_zero_iff {strict : Bool} {x : Except String Input} :
    status strict x = 0 ↔ ∃ input, x = .ok input ∧ ∀ u ∈ input.units, u.kept? strict ≠ none := by
  cases x with
  | error e => simp [status]
  | ok input => simp [status]

lemma emitted_eq_keptText (r : Request) (input : Input) :
    emitted r input = keptText r.strict r.layout input.units := by
  rw [emitted, batch, lowerAll_outputs, keptText]

/-- What is read depends on where the parsers and the source text are. -/
lemma readOn_congr {r' : Request} (hunit : r.unit = r'.unit) (hsource : r.source = r'.source) :
    readOn files r s = readOn files r' s := by
  unfold readOn readInput
  rw [hunit, hsource]

lemma runOn_of_error {e : String} (h : (readOn files r s).1 = .error e) :
    runOn files r s = (errorOutcome e, (readOn files r s).2) := by
  unfold runOn run
  rw [StateT.run_bind]
  unfold readOn at h ⊢
  rcases hr : (readInput files r).run s with ⟨x, s'⟩
  rw [hr] at h
  cases h
  rfl

lemma run_bind_of_run {α β : Type} {x : StateM σ α} {f : α → StateM σ β} {s s' : σ} {a : α}
    (h : x.run s = (a, s')) : (x >>= f).run s = (f a).run s' := by
  rw [StateT.run_bind, h]
  rfl

lemma runOn_of_ok {input : Input} (h : (readOn files r s).1 = .ok input) :
    runOn files r s = finishOn files r input (readOn files r s).2 := by
  unfold runOn run
  rw [StateT.run_bind]
  unfold readOn at h ⊢
  rcases hr : (readInput files r).run s with ⟨x, s'⟩
  rw [hr] at h
  cases h
  simp only [finishOn, ← status_batch]
  cases ha : r.action with
  | check => rfl
  | lower =>
    cases ho : r.output with
    | none => rfl
    | some path =>
      rcases hw : writeOn files path (emitted r input) s' with ⟨w, s''⟩
      refine (run_bind_of_run hw).trans ?_
      simp only [hw]
      cases w <;> rfl

lemma exit_finishOn {input : Input} (h : ∀ path, r.action = .lower → r.output = some path →
      (writeOn files path (emitted r input) s).1 = .ok ()) :
    (finishOn files r input s).1.exit = status r.strict (.ok input) := by
  unfold finishOn
  cases ha : r.action with
  | check => rfl
  | lower =>
    cases ho : r.output with
    | none => rfl
    | some path =>
      have hok := h path ha ho
      rcases hw : writeOn files path (emitted r input) s with ⟨w, s'⟩
      rw [hw] at hok
      cases hok
      simp only [hw]

lemma stdout_finishOn {input : Input} (ha : r.action = .lower) (ho : r.output = none) :
    (finishOn files r input s).1.stdout = emitted r input := by
  rw [finishOn, ha, ho]

lemma files_finishOn {input : Input} {path : String} (ha : r.action = .lower)
    (ho : r.output = some path) :
    (finishOn files r input s).2 = (writeOn files path (emitted r input) s).2 := by
  simp only [finishOn, ha, ho]
  rcases writeOn files path (emitted r input) s with ⟨w, s'⟩
  cases w <;> rfl

/-- Unless its text cannot be written, how a run ends depends on what it reads and on how strict it
is, whatever it does with the programs. -/
lemma exit_runOn (h : r.action = .lower → WriteSucceeds files r s) :
    (runOn files r s).1.exit = status r.strict (readOn files r s).1 := by
  cases hread : (readOn files r s).1 with
  | error e =>
    rw [runOn_of_error hread]
    rfl
  | ok input =>
    rw [runOn_of_ok hread]
    exact exit_finishOn fun path ha ho => h ha path input ho hread

/-- A run ends well exactly when all parsers that were read have their texts in its output. -/
lemma status_eq_zero_iff_emitted :
    status r.strict (readOn files r s).1 = 0 ↔ ∃ input programs,
      (readOn files r s).1 = .ok input ∧
      List.Forall₂ (fun u p => u.lower.result = .ok p) input.units programs ∧
      emitted r input = String.join (programs.map (Program.emit r.layout)) := by
  rw [status_eq_zero_iff]
  constructor
  · rintro ⟨input, hread, hkept⟩
    obtain ⟨programs, hprograms, htext⟩ := forall_kept_iff.mp hkept
    exact ⟨input, programs, hread, hprograms, (emitted_eq_keptText r input).trans htext⟩
  · rintro ⟨input, programs, hread, hprograms, htext⟩
    rw [emitted_eq_keptText] at htext
    exact ⟨input, hread, forall_kept_iff.mpr ⟨programs, hprograms, htext⟩⟩

end

/-- What a batch of parsers comes to. -/
structure BatchResult.Describes (printer : Report.Printer) (strict : Bool)
    (units : List ParserUnit) (b : BatchResult) : Prop where
  outputs : b.outputs = units.filterMap (ParserUnit.kept? strict)
  reports : b.reports =
    (units.filter ParserUnit.isReported).map fun u => printer.render u.lower.diagnostics
  failed : b.failed = true ↔ b.outputs.length < units.length
  /-- Whatever is dropped is reported. -/
  reported : ∀ u ∈ units, u.kept? strict = none →
    u.lower.diagnostics ≠ [] ∧ printer.render u.lower.diagnostics ∈ b.reports

lemma lowerAll_describes (units : List ParserUnit) :
    (lowerAll printer strict units).Describes printer strict units where
  outputs := lowerAll_outputs printer strict units
  reports := lowerAll_reports printer strict units
  failed := by
    rw [lowerAll_failed_iff, lowerAll_outputs, List.length_filterMap_lt_length_iff_exists]
    simp
  reported := by
    intro u hu hdropped
    have hreported := ParserUnit.isReported_of_dropped hdropped
    rw [lowerAll_reports]
    exact ⟨by simpa [ParserUnit.isReported] using hreported,
      List.mem_map_of_mem (List.mem_filter.mpr ⟨hu, hreported⟩)⟩

/-- **Batches.** The outputs of a batch are the programs of the parsers that are lowered, and, if
strict, without a warning; its reports are those of the parsers about which there is something to
report, so that none is dropped in silence. Being strict changes no report and only drops outputs.
A batch in two parts comes to what the parts come to. A run that writes the text of a batch ends
well exactly when that text is made of the texts of all parsers, and a run that only checks them
ends in the same way. -/
theorem lowerAll_outcome :
    (∀ printer strict units,
      (lowerAll printer strict units).Describes printer strict units) ∧
    (∀ printer units,
      (lowerAll printer true units).reports = (lowerAll printer false units).reports ∧
      (lowerAll printer true units).outputs.Sublist (lowerAll printer false units).outputs) ∧
    (∀ printer strict us vs,
      (lowerAll printer strict (us ++ vs)).outputs =
        (lowerAll printer strict us).outputs ++ (lowerAll printer strict vs).outputs ∧
      (lowerAll printer strict (us ++ vs)).reports =
        (lowerAll printer strict us).reports ++ (lowerAll printer strict vs).reports ∧
      (lowerAll printer strict (us ++ vs)).failed =
        ((lowerAll printer strict us).failed || (lowerAll printer strict vs).failed)) ∧
    ∀ {σ : Type} (files : Files (StateM σ)) (s : σ) (lower : Request), lower.action = .lower →
      (∀ input, (readOn files lower s).1 = .ok input →
        (lower.output = none → (runOn files lower s).1.stdout = emitted lower input) ∧
        ∀ path, lower.output = some path → (runOn files lower s).2 =
          (writeOn files path (emitted lower input) (readOn files lower s).2).2) ∧
      (WriteSucceeds files lower s →
        ((runOn files lower s).1.exit = 0 ↔ ∃ input programs,
          (readOn files lower s).1 = .ok input ∧
          List.Forall₂ (fun u p => u.lower.result = .ok p) input.units programs ∧
          emitted lower input = String.join (programs.map (Program.emit lower.layout))) ∧
        ∀ check : Request, check.action = .check → check.unit = lower.unit →
          check.source = lower.source → check.strict = lower.strict →
          (runOn files check s).1.exit = (runOn files lower s).1.exit) := by
  refine ⟨lowerAll_describes, fun printer units => ⟨?_, lowerAll_outputs_sublist printer units⟩,
    lowerAll_append, fun files s lower hlower => ⟨?_, fun hwrite => ?_⟩⟩
  · rw [lowerAll_reports, lowerAll_reports]
  · intro input hread
    rw [runOn_of_ok hread]
    exact ⟨stdout_finishOn hlower, fun _ => files_finishOn hlower⟩
  · have hexit : (runOn files lower s).1.exit = status lower.strict (readOn files lower s).1 :=
      exit_runOn fun _ => hwrite
    refine ⟨by rw [hexit, status_eq_zero_iff_emitted], fun check hcheck hunit hsource hstrict => ?_⟩
    have hexit' : (runOn files check s).1.exit = status check.strict (readOn files check s).1 :=
      exit_runOn fun h => absurd (hcheck.symm.trans h) (by decide)
    rw [hexit, hexit', hstrict, readOn_congr hunit hsource]

/-- Two parsers: nothing is wrong with the first, the second extracts into a parameter. -/
def twoParsers : Document :=
  .array [
    .object [("name", .string "p"), ("states", .array [])],
    .object [("name", .string "q"),
      ("types", .object [("packet_in", .object [("kind", .string "extern")]),
        ("h_t", .object [("kind", .string "header"), ("fields", .array [])])]),
      ("params", .array [
        .object [("name", .string "b"),
          ("type", .object [("kind", .string "named"), ("name", .string "packet_in")])],
        .object [("name", .string "h"),
          ("type", .object [("kind", .string "named"), ("name", .string "h_t")])]]),
      ("states", .array [.object [("name", .string "start"),
        ("statements", .array [.object [("kind", .string "call"),
          ("method", .object [("kind", .string "member"),
            ("base", .object [("kind", .string "path"), ("name", .string "b")]),
            ("member", .string "extract")]),
          ("args", .array [.object [("kind", .string "path"), ("name", .string "h")]])]])],
        .object [("name", .string "accept")], .object [("name", .string "reject")]])]]

def plainParser : ParserUnit := ⟨"p", .empty, [], [], []⟩

def ignoringParser : ParserUnit :=
  ⟨"q", .ofList [("h_t", .header []), ("packet_in", .external)],
    [⟨"b", .none, .named "packet_in", none⟩, ⟨"h", .none, .named "h_t", none⟩], [],
    [⟨"start", [.call (.member (.path "b" none) "extract" none) [.path "h" none] none], none, none⟩,
      ⟨"accept", [], none, none⟩, ⟨"reject", [], none, none⟩]⟩

set_option maxRecDepth 4000 in
lemma loadUnits_twoParsers :
    loadUnits twoParsers.render = .ok [plainParser, ignoringParser] := by
  rw [loadUnits, Document.render, String.toList_ofList]
  cbv

/-- One text under every name, and a list of what is written. -/
def shelf (text : String) : Files (StateM (List (String × String))) where
  read _ := return .ok text
  readInput := return .ok text
  write path text := do
    modify ((path, text) :: ·)
    return .ok ()

def strictly (action : Action) (output : Option String) : Request :=
  ⟨action, "units", none, output, 1, true, .auto, 0⟩

def strictlyLowered : Request := strictly .lower (some "out")

lemma readOn_shelf {text : String} {units : List ParserUnit} (h : loadUnits text = .ok units)
    (action : Action) (output : Option String) :
    readOn (shelf text) (strictly action output) [] = (.ok ⟨units, none⟩, []) := by
  have hunits : (readUnits (shelf text) "units").run [] = (.ok units, []) := by
    change ((loadUnits text).mapError _, _) = _
    rw [h]
    rfl
  exact run_bind_of_run hunits

/-- The warning about the second parser fails both runs, and the text of the first is written. -/
theorem lowerAll_outcome_strict :
    (runOn (shelf twoParsers.render) (strictly .check none) []).1.exit =
      (runOn (shelf twoParsers.render) strictlyLowered []).1.exit ∧
    (runOn (shelf twoParsers.render) strictlyLowered []).1.exit ≠ 0 ∧
    (runOn (shelf twoParsers.render) strictlyLowered []).2 =
      [("out", emitted strictlyLowered ⟨[plainParser, ignoringParser], none⟩)] := by
  have hread : readOn (shelf twoParsers.render) strictlyLowered [] =
      (.ok ⟨[plainParser, ignoringParser], none⟩, []) :=
    readOn_shelf loadUnits_twoParsers .lower (some "out")
  obtain ⟨hwritten, hends⟩ :=
    lowerAll_outcome.2.2.2 (shelf twoParsers.render) [] strictlyLowered rfl
  obtain ⟨hzero, hexit⟩ := hends fun _ _ _ _ => rfl
  rw [hread] at hwritten hzero
  refine ⟨hexit (strictly .check none) rfl rfl rfl rfl, ?_, (hwritten _ rfl).2 "out" rfl⟩
  intro h
  obtain ⟨input, programs, hinput, hprograms, htext⟩ := hzero.mp h
  cases hinput
  rw [emitted_eq_keptText] at htext
  have hkept := (keptText_eq_iff hprograms).mp htext
  exact hkept ignoringParser (by simp) (by decide)

end Command

end PacketSections
