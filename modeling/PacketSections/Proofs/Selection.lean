import Mathlib
import PacketSections.Proofs.Simulation

/-!
What a selection means, and what the emitted arms make of it.

An element of a case stands for a set of values. A case is taken when the value of each key is in
the set of its element, and the first such case counts. The arms ask for the same, with one
exception: they compare a masked key with the value of the mask as it stands. A case whose value has
bits outside of its mask is therefore never taken.
-/

namespace PacketSections

open Lowering

variable {text : Expr → String} {val : Expr → ℕ} {truth : Truth} {keys : List Expr}

/-! ### Values -/

namespace Keyset

/-- Whether a key of value `x` is matched, where `val` gives the values of expressions. -/
def admits (val : Expr → ℕ) (x : ℕ) : Keyset → Bool
  | value v => x == val v
  | mask v m => x &&& val m == val v &&& val m
  | default => true

/-- The value of a mask has no bits outside of the mask. -/
def fits (val : Expr → ℕ) : Keyset → Bool
  | mask v m => val v &&& val m == val v
  | _ => true

end Keyset

namespace SelectCase

/-- Whether all keys are matched. -/
def admits (val : Expr → ℕ) (keys : List Expr) (c : SelectCase) : Bool :=
  (keys.zip c.keyset).all fun k => k.2.admits val (val k.1)

/-- No value has bits outside of its mask. -/
def fits (val : Expr → ℕ) (c : SelectCase) : Bool := c.keyset.all (Keyset.fits val)

/-- The target of the first case that matches; without one, the packet is rejected. -/
def chosen (val : Expr → ℕ) (keys : List Expr) (cases : List SelectCase) : String :=
  match cases.find? (admits val keys) with
  | some c => c.target
  | none => State.rejectName

end SelectCase

/-- The term of an element says what it seems to say: `==` compares values, and `&` keeps the bits
that both have. -/
def Keyset.ReadBy (text : Expr → String) (val : Expr → ℕ) (truth : Truth) (key : Expr) :
    Keyset → Prop
  | value v => truth (text key ++ " == " ++ text v) = true ↔ val key = val v
  | mask v m =>
    truth ("(" ++ text key ++ " & " ++ text m ++ ") == " ++ text v) = true ↔
      val key &&& val m = val v
  | default => True

instance (text : Expr → String) (val : Expr → ℕ) (truth : Truth) (key : Expr) : (k : Keyset) →
    Decidable (k.ReadBy text val truth key)
  | .value _ => inferInstanceAs (Decidable (_ ↔ _))
  | .mask _ _ => inferInstanceAs (Decidable (_ ↔ _))
  | .default => .isTrue trivial

/-- The conditions of a selection say what they seem to say: each term does, and terms joined by
`&&` hold when all of them do. -/
structure Truth.Reads (truth : Truth) (text : Expr → String) (val : Expr → ℕ) (keys : List Expr)
    (cases : List SelectCase) : Prop where
  single : ∀ c ∈ cases, ∀ k ∈ keys.zip c.keyset, k.2.ReadBy text val truth k.1
  joined : ∀ c ∈ cases, truth.Joins (Keyset.terms text keys c.keyset)

/-! ### Terms and cases -/

/-- A masked key equals a value when it does so on the mask, and the value has no other bits. -/
lemma and_eq_iff (x m v : ℕ) : x &&& m = v ↔ x &&& m = v &&& m ∧ v &&& m = v := by
  constructor
  · rintro rfl
    have h : x &&& m &&& m = x &&& m := by rw [Nat.land_assoc, Nat.and_self]
    exact ⟨h.symm, h⟩
  · rintro ⟨h, hv⟩
    exact h.trans hv

/-- A term holds when its element fits and matches. -/
lemma accepts_eq_admits {key : Expr} {k : Keyset} (hk : k.ReadBy text val truth key) :
    k.accepts text truth key = (k.fits val && k.admits val (val key)) := by
  rw [Bool.eq_iff_iff]
  cases k with
  | value v =>
    simpa [Keyset.accepts, Keyset.term?, Keyset.fits, Keyset.admits, Keyset.ReadBy] using hk
  | mask v m =>
    simp only [Keyset.ReadBy] at hk
    rw [and_eq_iff] at hk
    simpa [Keyset.accepts, Keyset.term?, Keyset.fits, Keyset.admits, and_comm] using hk
  | default => simp [Keyset.accepts, Keyset.term?, Keyset.fits, Keyset.admits]

/-- A case is taken when it fits and matches. -/
lemma case_accepts_eq {cases : List SelectCase} (hr : truth.Reads text val keys cases)
    {c : SelectCase} (hc : c ∈ cases) (hl : c.keyset.length = keys.length) :
    c.accepts text truth keys = (c.fits val && c.admits val keys) := by
  have hfits : c.fits val = (keys.zip c.keyset).all fun k => k.2.fits val := by
    have hsnd : (keys.zip c.keyset).map Prod.snd = c.keyset := List.map_snd_zip hl.le
    calc c.fits val = ((keys.zip c.keyset).map Prod.snd).all (Keyset.fits val) := by
          rw [hsnd, SelectCase.fits]
      _ = (keys.zip c.keyset).all fun k => k.2.fits val := List.all_map
  rw [hfits, Bool.eq_iff_iff]
  simp only [SelectCase.accepts, SelectCase.admits, Bool.and_eq_true, List.all_eq_true]
  constructor
  · intro h
    have hboth : ∀ k ∈ keys.zip c.keyset,
        k.2.fits val = true ∧ k.2.admits val (val k.1) = true := by
      intro k hk
      have := h k hk
      rwa [accepts_eq_admits (hr.single c hc k hk), Bool.and_eq_true] at this
    exact ⟨fun k hk => (hboth k hk).1, fun k hk => (hboth k hk).2⟩
  · rintro ⟨hf, ha⟩ k hk
    rw [accepts_eq_admits (hr.single c hc k hk), hf k hk, ha k hk]
    rfl

/-- The texts lead to the first case that matches, among those that fit. -/
lemma choose_eq_chosen {cases : List SelectCase} (hr : truth.Reads text val keys cases)
    (hl : ∀ c ∈ cases, c.keyset.length = keys.length) :
    (Transition.select keys cases).choose text truth =
      SelectCase.chosen val keys (cases.filter (SelectCase.fits val)) := by
  have hfind : cases.find? (fun c => c.accepts text truth keys) =
      (cases.filter (SelectCase.fits val)).find? (SelectCase.admits val keys) := by
    rw [List.find?_filter]
    apply List.find?_congr
    intro c hc
    rw [case_accepts_eq hr hc (hl c hc), Bool.decide_and, Bool.decide_coe, Bool.decide_coe]
  simp only [Transition.choose, hfind]
  rfl

/-! ### Lowered selections -/

lemma becomes_chosen {facts : Facts} {storage : Storage} {s : State} {sec : Section}
    {cases : List SelectCase} (hb : s.Becomes facts storage sec) (hord : s.isTerminal = false)
    (ht : s.transition = some (.select keys cases))
    (hl : ∀ c ∈ cases, c.keyset.length = keys.length)
    (hr : truth.Reads (convert facts storage) val keys cases) :
    sec.next.choose truth =
      some (SelectCase.chosen val keys (cases.filter (SelectCase.fits val))) := by
  have hchoose : (lowerTransition facts storage (some (.select keys cases))).choose truth =
      some ((Transition.select keys cases).choose (convert facts storage) truth) :=
    select_choose hr.joined hl
  rw [hb.goesOn hord, ht, hchoose, choose_eq_chosen hr hl]

/-- **The arms of a selection lead to the first case that matches, among those that fit.** When no
value has bits outside of its mask, this is what the selection means. -/
theorem lower_select_chosen {facts : Facts} {u : ParserUnit} {p : Program}
    (h : (lower facts u).result = .ok p) {i : ℕ} {s : State} (hs : u.states[i]? = some s)
    (hord : s.isTerminal = false) {keys : List Expr} {cases : List SelectCase}
    (ht : s.transition = some (.select keys cases))
    (hl : ∀ c ∈ cases, c.keyset.length = keys.length) (val : Expr → ℕ) (truth : Truth)
    (hr : truth.Reads (convert facts u.storage) val keys cases) :
    ∃ sec, p.sections[i]? = some sec ∧
      sec.next.choose truth =
        some (SelectCase.chosen val keys (cases.filter (SelectCase.fits val))) ∧
      ((∀ c ∈ cases, c.fits val = true) →
        sec.next.choose truth = some (SelectCase.chosen val keys cases)) := by
  obtain ⟨sec, hsec, hb⟩ := lower_becomes_at h hs
  have hnext : sec.next.choose truth =
      some (SelectCase.chosen val keys (cases.filter (SelectCase.fits val))) :=
    becomes_chosen hb hord ht hl hr
  refine ⟨sec, hsec, hnext, fun hfit => ?_⟩
  rw [hnext, List.filter_eq_self.mpr hfit]

/-- A parser with a single selection. -/
def selectingParser (keys : List Expr) (cases : List SelectCase) : ParserUnit :=
  { sampleParser with
    states :=
      [⟨"start", [], some (.select keys cases), none⟩, .bare "inner", .bare "accept",
       .bare "reject"] }

/-- Two keys, the first of which is itself a conjunction, and two cases. -/
def jointKeys : List Expr :=
  let field (name : String) : Expr := .member (.member (.path "hdr" none) "outer" none) name none
  let equal (e : Expr) (n : UInt64) : Expr := .binary .eq e (.constant n none none) none
  [.binary .and (equal (field "kind") 1) (equal (field "more") 2) none, field "kind"]

def jointCases : List SelectCase :=
  [⟨[.value (.constant 0 none none), .value (.constant 1 none none)], "accept"⟩,
   ⟨[.value (.constant 0 none none), .mask (.constant 2 none none) (.constant 3 none none)],
    "inner"⟩]

def jointParser : ParserUnit := selectingParser jointKeys jointCases

/-- Both fields are two, so that the conjunction is false. -/
def jointValue : Expr → ℕ
  | .constant n _ _ => n.toNat
  | .binary _ _ _ _ => 0
  | _ => 2

/-- The texts that hold for these values. The parts of the first key are not among them. -/
def jointTruth : Truth := fun s =>
  s ∈ ["((hdr.outer.kind == 1) && (hdr.outer.more == 2)) == 0", "(hdr.outer.kind & 3) == 2",
    "(((hdr.outer.kind == 1) && (hdr.outer.more == 2)) == 0) && ((hdr.outer.kind & 3) == 2)"]

lemma jointTruth_reads :
    jointTruth.Reads (convert jointParser.facts jointParser.storage) jointValue jointKeys
      jointCases where
  single := by decide
  joined := by decide

theorem lower_select_chosen_joint :
    ∃ p sec, (lower jointParser.facts jointParser).result = .ok p ∧ p.sections[0]? = some sec ∧
      jointTruth.Reads (convert jointParser.facts jointParser.storage) jointValue jointKeys
        jointCases ∧
      sec.next.choose jointTruth = some "inner" := by
  obtain ⟨p, hp⟩ : ∃ p, (lower jointParser.facts jointParser).result = .ok p := ⟨_, rfl⟩
  obtain ⟨sec, hsec, -, hnext⟩ := lower_select_chosen hp (i := 0) rfl rfl rfl
    (by simp [jointCases, jointKeys]) jointValue jointTruth jointTruth_reads
  exact ⟨p, sec, hp, hsec, jointTruth_reads, (hnext (by decide)).trans (by decide)⟩

/-- One key, and two cases that match it when its value is three: the first one asks for seven under
the mask three. -/
def looseKeys : List Expr := [.member (.member (.path "hdr" none) "outer" none) "kind" none]

def looseCases : List SelectCase :=
  [⟨[.mask (.constant 7 none none) (.constant 3 none none)], "accept"⟩,
   ⟨[.value (.constant 3 none none)], "inner"⟩]

def looseParser : ParserUnit := selectingParser looseKeys looseCases

/-- Constants have their own value, and all else has the value three. -/
def looseValue : Expr → ℕ
  | .constant n _ _ => n.toNat
  | _ => 3

/-- The condition of the second case holds, and that of the first, `(hdr.outer.kind & 3) == 7`, does
not. -/
def looseTruth : Truth := fun s => s == "hdr.outer.kind == 3"

lemma looseTruth_reads :
    looseTruth.Reads (convert looseParser.facts looseParser.storage) looseValue looseKeys
      looseCases where
  single := by decide
  joined := by decide

/-- The first case matches, but does not fit. The selection means to accept, and the arms lead
elsewhere. -/
theorem lower_select_passes_over_match :
    SelectCase.chosen looseValue looseKeys looseCases = "accept" ∧
    ∃ p sec, looseParser.lower.result = .ok p ∧ p.sections[0]? = some sec ∧
      (∃ truth : Truth, truth.Reads (convert looseParser.facts looseParser.storage) looseValue
        looseKeys looseCases) ∧
      ∀ truth : Truth, truth.Reads (convert looseParser.facts looseParser.storage) looseValue
        looseKeys looseCases → sec.next.choose truth = some "inner" := by
  obtain ⟨p, hp⟩ : ∃ p, (lower looseParser.facts looseParser).result = .ok p := ⟨_, rfl⟩
  obtain ⟨sec, hsec, hb⟩ := lower_becomes_at hp (i := 0) rfl
  refine ⟨by decide, p, sec, hp, hsec, ⟨_, looseTruth_reads⟩, fun truth hr => ?_⟩
  rw [becomes_chosen hb rfl rfl (by simp [looseCases, looseKeys]) hr]
  decide

end PacketSections
