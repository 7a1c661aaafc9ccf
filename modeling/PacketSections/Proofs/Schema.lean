import Mathlib
import PacketSections.Proofs.Completion
import PacketSections.Proofs.Following
import PacketSections.Source.Decode

/-!
The parts of a parser and their fields, and what it takes for one draft to stand for another.

Where a value is read as a part, its fields say which of its members matter and as what they are
read; the fields of a tagged object are those of the variant that its tag selects. A likeness
relates values that agree on their fields, level by level. It need not look at members that belong
to no field, nor at the order of the members.
-/

namespace PacketSections

open Json

/-- The parts of a parser that are written as objects. -/
inductive Part where
  | unit
  | param
  | localDecl
  | state
  | statement
  | transition
  | selectCase
  | keyset
  | expr
  | typeRef
  | typeDecl
  | fieldDecl
  | span
deriving DecidableEq

/-- What a value is read as: as something that is no part, as a part, as a list of parts, or as an
object whose names are data and whose values are parts. -/
inductive Form where
  | plain
  | one (p : Part)
  | many (p : Part)
  | table (p : Part)
deriving DecidableEq

/-- The names of fields and what their values are read as. -/
abbrev Fields := List (String × Form)

/-- A part has one list of fields, or one for each of its tags. -/
inductive Shape where
  | record (fields : Fields)
  | tagged (variants : List (String × Fields))

/-- The fields of an expression, except for the place that it comes from. -/
def Expr.forms : List (String × Fields) :=
  [("path", [("name", .plain)]),
   ("member", [("base", .one .expr), ("member", .plain)]),
   ("index", [("base", .one .expr), ("index", .one .expr)]),
   ("slice", [("base", .one .expr), ("hi", .plain), ("lo", .plain)]),
   ("constant", [("value", .plain), ("width", .plain)]),
   ("bool", [("value", .plain)]),
   ("unary", [("op", .plain), ("operand", .one .expr)]),
   ("binary", [("op", .plain), ("lhs", .one .expr), ("rhs", .one .expr)])]

def Part.shape : Part → Shape
  | unit => .record
    [("name", .plain), ("types", .table .typeDecl), ("params", .many .param),
     ("locals", .many .localDecl), ("states", .many .state)]
  | param => .record
    [("name", .plain), ("direction", .plain), ("type", .one .typeRef), ("span", .one .span)]
  | localDecl => .tagged
    [("value_set", [("name", .plain), ("element_type", .one .typeRef), ("size", .plain),
      ("control_plane_name", .plain), ("span", .one .span)]),
     ("variable", [("name", .plain), ("type", .one .typeRef), ("initializer", .one .expr),
      ("span", .one .span)]),
     ("instance", [("name", .plain), ("type", .one .typeRef), ("span", .one .span)])]
  | state => .record
    [("name", .plain), ("statements", .many .statement), ("transition", .one .transition),
     ("span", .one .span)]
  | statement => .tagged
    [("assign", [("left", .one .expr), ("right", .one .expr), ("span", .one .span)]),
     ("call", [("method", .one .expr), ("args", .many .expr), ("span", .one .span)]),
     ("empty", []),
     ("other", [("text", .plain), ("span", .one .span)])]
  | transition => .tagged
    [("direct", [("target", .plain)]),
     ("select", [("keys", .many .expr), ("cases", .many .selectCase)])]
  | selectCase => .record [("keyset", .many .keyset), ("target", .plain)]
  | keyset => .tagged
    [("value", [("value", .one .expr)]),
     ("mask", [("value", .one .expr), ("mask", .one .expr)]),
     ("default", [])]
  | expr => .tagged (Expr.forms.map fun v => (v.1, v.2 ++ [("span", .one .span)]))
  | typeRef => .tagged
    [("bits", [("width", .plain)]),
     ("bool", []),
     ("named", [("name", .plain)]),
     ("stack", [("element", .one .typeRef), ("size", .plain)])]
  | typeDecl => .tagged
    [("header", [("fields", .many .fieldDecl)]),
     ("struct", [("fields", .many .fieldDecl)]),
     ("header_union", [("fields", .many .fieldDecl)]),
     ("extern", [])]
  | fieldDecl => .record [("name", .plain), ("type", .one .typeRef)]
  | span => .record [("start", .plain), ("end", .plain)]

namespace Shape

/-- The fields of the variant that a tag names, or numbers. -/
def variant (vs : List (String × Fields)) : Draft → Fields
  | .string (.ok s) => ((vs.find? fun v => v.1 == s).map Prod.snd).getD []
  | .number (.ok (.natural n)) => (vs[n.toNat]?.map Prod.snd).getD []
  | _ => []

/-- The fields of an object with those tags; there are none unless it is clear which tag counts. -/
def fields : Shape → List Draft → Fields
  | record fs, _ => fs
  | tagged vs, [t] => (tagName, .plain) :: variant vs t
  | tagged _, _ => []

/-- The fields of each tag. -/
def table : Shape → List (String × Fields)
  | record _ => []
  | tagged vs => vs

/-- A draft selects the variant that its document selects. -/
lemma variant_completes {room : ℕ} {t : Draft} {d : Document} (h : t.Completes room d)
    (vs : List (String × Fields)) : variant vs t = variant vs (.ofDocument d) := by
  cases t with
  | null => obtain rfl := Draft.completes_null_left.mp h; rfl
  | bool b => obtain rfl := Draft.completes_bool_left.mp h; rfl
  | number v => obtain ⟨n, rfl, rfl⟩ := Draft.completes_number_left.mp h; rfl
  | string v => obtain ⟨s, rfl, rfl⟩ := Draft.completes_string_left.mp h; rfl
  | array _ _ _ => obtain ⟨_, _, -, -, -, rfl⟩ := Draft.completes_array_left.mp h; rfl
  | object _ _ _ => obtain ⟨_, _, _, -, -, -, -, rfl⟩ := Draft.completes_object_left.mp h; rfl
  | broken _ _ => simp at h

lemma fields_completes {room : ℕ} {ts : List Draft} {ds : List Document}
    (h : List.Forall₂ (Draft.Completes room) ts ds) (s : Shape) :
    s.fields ts = s.fields (ds.map .ofDocument) := by
  cases s with
  | record fs => rfl
  | tagged vs =>
    cases h with
    | nil => rfl
    | cons ht hs =>
      cases hs with
      | nil => simp only [List.map_cons, List.map_nil, fields, variant_completes ht]
      | cons _ _ => rfl

end Shape

/-- The fields of an object that is read as that part. -/
def Part.fields (p : Part) (vs : List (String × Draft)) : Fields :=
  p.shape.fields (valuesOf tagName vs)

/-- What the items of a list are read as that is read as that part; a tag comes first. -/
def Part.items (p : Part) (xs : List Draft) : List Form :=
  (p.shape.fields (xs.take 1)).map Prod.snd

/-- Values in which there is nothing to be rearranged. -/
inductive Rigid : Form → Document → Prop
  | null (f : Form) : Rigid f .null
  | bool (f : Form) (b : Bool) : Rigid f (.bool b)
  | number (f : Form) (n : Number) : Rigid f (.number n)
  | string (f : Form) (s : String) : Rigid f (.string s)
  | choice (k : String) : Rigid .plain (.object [(k, .null)])
  | empty (k : String) : Rigid .plain (.object [(k, .object [])])

/-- Each field has like values on both sides, and if the members besides them can be skipped on one
side, then on the other. -/
structure KeepsFields (R : Form → Draft → Draft → Prop) (fields : Fields)
    (vs ws : List (String × Draft)) : Prop where
  values : ∀ f ∈ fields, Once (R f.2) (valuesOf f.1 vs) (valuesOf f.1 ws)
  foreign : (∀ v ∈ vs, v.1 ∉ fields.map Prod.fst → v.2.skipFault = none) →
    ∀ w ∈ ws, w.1 ∉ fields.map Prod.fst → w.2.skipFault = none

/-- Members of the same names in the same order, each pair alike in any form. -/
lemma KeepsFields.of_forall₂ {R : Form → Draft → Draft → Prop} {vs ws : List (String × Draft)}
    (h : List.Forall₂ (fun v w => v.1 = w.1 ∧ (∀ f, R f v.2 w.2) ∧
      (v.2.skipFault = none → w.2.skipFault = none)) vs ws) (fields : Fields) :
    KeepsFields R fields vs ws where
  values := by
    intro f _
    refine .of_forall₂ (forall₂_valuesOf (h.imp fun v w hvw => ?_) f.1)
    exact ⟨hvw.1, hvw.2.1 f.2⟩
  foreign := by
    intro hvs w hw hwf
    induction h with
    | nil => simp at hw
    | cons hvw _ ih =>
      rw [List.forall_mem_cons] at hvs
      rcases List.mem_cons.mp hw with rfl | hw
      · exact hvw.2.2 (hvs.1 (hvw.1 ▸ hwf))
      · exact ih hvs.2 hw

/-- `R room room' f x y` says that `y`, for which there is `room'`, can be read instead of `x`, for
which there is `room`, where an `f` is expected. -/
structure Likeness (R : ℕ → ℕ → Form → Draft → Draft → Prop) : Prop where
  completes : ∀ {room room' f x y d}, R room room' f x y → x.Completes room d →
    ∃ e, y.Completes room' e
  rigid : ∀ {room room' f x y d}, R room room' f x y → x.Completes room d → Rigid f d →
    y.Completes room' d
  null : ∀ {room room' f x}, R room room' f x .null → x = .null
  list : ∀ {i room' p after xs y}, R (i + 1) room' (.many p) (.array after xs none) y →
    ∃ j after' ys, room' = j + 1 ∧ y = .array after' ys none ∧ List.Forall₂ (R i j (.one p)) xs ys
  items : ∀ {i room' p after xs y}, R (i + 1) room' (.one p) (.array after xs none) y →
    ∃ j after' ys, room' = j + 1 ∧ y = .array after' ys none ∧ Aligned (R i j) (p.items xs) xs ys
  members : ∀ {i room' p after xs vs y}, R (i + 1) room' (.one p) (.object after xs none) y →
    Draft.named xs = Record.keyed vs →
    ∃ j after' ys ws, room' = j + 1 ∧ y = .object after' ys none ∧
      Draft.named ys = Record.keyed ws ∧ KeepsFields (R i j) (p.fields vs) vs ws

/-- Objects whose names are data are alike only if they have the same names in the same order. -/
def KeepsEntries (R : ℕ → ℕ → Form → Draft → Draft → Prop) : Prop :=
  ∀ ⦃i room' p after xs vs y⦄, R (i + 1) room' (.table p) (.object after xs none) y →
    Draft.named xs = Record.keyed vs →
    ∃ j after' ys ws, room' = j + 1 ∧ y = .object after' ys none ∧
      Draft.named ys = Record.keyed ws ∧
      List.Forall₂ (fun v w => v.1 = w.1 ∧ R i j (.one p) v.2 w.2) vs ws

/-- The documents of drafts that are alike, the second one with at most `m` levels. -/
def Mirrors (R : ℕ → ℕ → Form → Draft → Draft → Prop) (m : ℕ) (f : Form) (d e : Document) : Prop :=
  e.Within m ∧ ∃ room room' x y, R room room' f x y ∧ x.Completes room d ∧ y.Completes room' e

namespace Likeness

variable {R : ℕ → ℕ → Form → Draft → Draft → Prop} {m : ℕ} {f : Form} {p : Part}

lemma mirrors_rigid (hR : Likeness R) {d e : Document} (h : Mirrors R m f d e) (hd : Rigid f d) :
    e = d := by
  obtain ⟨-, room, room', x, y, hxy, hx, hy⟩ := h
  exact hy.unique (hR.rigid hxy hx hd)

lemma mirrors_null (hR : Likeness R) {d : Document} (h : Mirrors R m f d .null) : d = .null := by
  obtain ⟨-, room, room', x, y, hxy, hx, hy⟩ := h
  obtain rfl := Draft.completes_null_iff.mp hy
  obtain rfl := hR.null hxy
  exact Draft.completes_null_left.mp hx

lemma mirrors_list (hR : Likeness R) {ds : List Document} {e : Document}
    (h : Mirrors R m (.many p) (.array ds) e) :
    ∃ k es, m = k + 1 ∧ e = .array es ∧ List.Forall₂ (Mirrors R k (.one p)) ds es := by
  obtain ⟨hm, room, room', x, y, hxy, hx, hy⟩ := h
  obtain ⟨i, after, xs, rfl, rfl, hxs⟩ := Draft.completes_array_iff.mp hx
  obtain ⟨j, after', ys, rfl, rfl, hlist⟩ := hR.list hxy
  obtain ⟨_, es, ⟨⟩, -, hys, rfl⟩ := Draft.completes_array_left.mp hy
  obtain ⟨k, rfl, hk⟩ := Document.within_array.mp hm
  refine ⟨k, es, rfl, rfl, ?_⟩
  clear hxy hx hy hm
  induction hlist generalizing ds es with
  | nil => cases hxs; cases hys; exact .nil
  | cons hxy _ ih =>
    obtain _ | ⟨hx, hxs⟩ := hxs
    obtain _ | ⟨hy, hys⟩ := hys
    rw [List.forall_mem_cons] at hk
    exact .cons ⟨hk.1, _, _, _, _, hxy, hx, hy⟩ (ih hxs _ hys hk.2)

lemma mirrors_items (hR : Likeness R) {ds : List Document} {e : Document}
    (h : Mirrors R m (.one p) (.array ds) e) :
    ∃ k es, m = k + 1 ∧ e = .array es ∧
      Aligned (Mirrors R k) ((p.shape.fields ((ds.take 1).map .ofDocument)).map Prod.snd) ds
        es := by
  obtain ⟨hm, room, room', x, y, hxy, hx, hy⟩ := h
  obtain ⟨i, after, xs, rfl, rfl, hxs⟩ := Draft.completes_array_iff.mp hx
  obtain ⟨j, after', ys, rfl, rfl, hitems⟩ := hR.items hxy
  obtain ⟨_, es, ⟨⟩, -, hys, rfl⟩ := Draft.completes_array_left.mp hy
  obtain ⟨k, rfl, hk⟩ := Document.within_array.mp hm
  refine ⟨k, es, rfl, rfl, ?_⟩
  rw [Part.items, Shape.fields_completes (List.forall₂_take 1 hxs)] at hitems
  clear hxy hx hy hm
  revert hitems
  generalize List.map Prod.snd _ = fs
  intro hitems
  induction hitems generalizing ds es with
  | nil => cases hxs; cases hys; exact .nil
  | cons hxy _ ih =>
    obtain _ | ⟨hx, hxs⟩ := hxs
    obtain _ | ⟨hy, hys⟩ := hys
    rw [List.forall_mem_cons] at hk
    exact .cons ⟨hk.1, _, _, _, _, hxy, hx, hy⟩ (ih hxs _ hys hk.2)
  | rest hlen => exact .rest (by rw [← hxs.length_eq, hlen, hys.length_eq])

lemma mirrors_members (hR : Likeness R) {ms : List (String × Document)} {e : Document}
    (h : Mirrors R m (.one p) (.object ms) e) :
    ∃ k ns, m = k + 1 ∧ e = .object ns ∧
      ∀ f ∈ p.shape.fields ((valuesOf tagName ms).map .ofDocument),
        Once (Mirrors R k f.2) (valuesOf f.1 ms) (valuesOf f.1 ns) := by
  obtain ⟨hm, room, room', x, y, hxy, hx, hy⟩ := h
  obtain ⟨i, after, xs, vs, rfl, rfl, hvs, hms⟩ := Draft.completes_object_iff.mp hx
  obtain ⟨j, after', ys, ws, rfl, rfl, hws, hkeeps⟩ := hR.members hxy hvs
  obtain ⟨_, ws', ns, ⟨⟩, -, hws', hns, rfl⟩ := Draft.completes_object_left.mp hy
  obtain rfl : ws = ws' := Record.keyed_injective (hws.symm.trans hws')
  obtain ⟨k, rfl, hk⟩ := Document.within_object.mp hm
  refine ⟨k, ns, rfl, rfl, fun f hf => ?_⟩
  rw [← Shape.fields_completes (forall₂_valuesOf hms tagName)] at hf
  obtain ⟨hnone, hone⟩ := hkeeps.values f hf
  have hvals := forall₂_valuesOf hms f.1
  have hvals' := forall₂_valuesOf hns f.1
  constructor
  · intro hnil
    rw [hnil, List.forall₂_nil_right_iff] at hvals
    rwa [hnone hvals, List.forall₂_nil_left_iff] at hvals'
  · intro d hd
    rw [hd, List.forall₂_cons_right_iff] at hvals
    obtain ⟨v, _, hv, hnil, hvs⟩ := hvals
    obtain rfl := List.forall₂_nil_right_iff.mp hnil
    obtain ⟨w, hw, hvw⟩ := hone v hvs
    rw [hw, List.forall₂_singleton_left_iff] at hvals'
    obtain ⟨e, hes, he⟩ := hvals'
    have hmem : e ∈ valuesOf f.1 ns := by simp [hes]
    exact ⟨e, hes, hk _ (mem_valuesOf.mp hmem), _, _, v, w, hvw, hv, he⟩

end Likeness

end PacketSections
