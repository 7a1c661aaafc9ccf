import Mathlib
import PacketSections.Proofs.Extraction

/-!
The number of bits of a type.

The width of a type is added up field by field in 32 bits, and each partial sum is checked. The
partial sums are never larger than the whole, so nothing but the whole decides: a type has a width
exactly when it consists of bits, truth values, structures and headers only, and the sum of all its
leaves as a natural number has at most 32 bits. The flat fields have the same sum and one more bit
for each header.
-/

namespace PacketSections

namespace ResolvedType

/-! ### The types in a type -/

mutual

/-- A type and all the types in it. -/
def nodes : ResolvedType → List ResolvedType
  | aggregate kind name fields => aggregate kind name fields :: fieldNodes fields
  | stack element size => stack element size :: nodes element
  | t => [t]

def fieldNodes : List (String × ResolvedType) → List ResolvedType
  | [] => []
  | (_, t) :: fields => nodes t ++ fieldNodes fields

end

/-- Whether it is bits, a truth value, a structure or a header. -/
def isStatic : ResolvedType → Bool
  | bits _ => true
  | bool => true
  | aggregate kind _ _ => kind != .headerUnion
  | _ => false

/-- The bits of a leaf. -/
def leafBits : ResolvedType → ℕ
  | bits w => w.toNat
  | bool => 1
  | _ => 0

/-- All of the types are bits, truth values, structures and headers. -/
def AllStatic (ts : List ResolvedType) : Prop := ∀ t ∈ ts, t.isStatic = true

instance (ts : List ResolvedType) : Decidable (AllStatic ts) :=
  inferInstanceAs (Decidable (∀ t ∈ ts, _))

/-- The bits of all leaves together. -/
def sumBits (ts : List ResolvedType) : ℕ := (ts.map leafBits).sum

/-- The number of headers. -/
def headers (ts : List ResolvedType) : ℕ := ts.countP isHeader

section

variable (t : ResolvedType) (ts us : List ResolvedType)

lemma allStatic_cons : AllStatic (t :: ts) ↔ t.isStatic = true ∧ AllStatic ts :=
  List.forall_mem_cons

lemma allStatic_append : AllStatic (ts ++ us) ↔ AllStatic ts ∧ AllStatic us :=
  List.forall_mem_append

lemma sumBits_cons : sumBits (t :: ts) = t.leafBits + sumBits ts := by
  rw [sumBits, List.map_cons, List.sum_cons, sumBits]

lemma sumBits_append : sumBits (ts ++ us) = sumBits ts + sumBits us := by
  rw [sumBits, List.map_append, List.sum_append, sumBits, sumBits]

lemma headers_cons : headers (t :: ts) = headers ts + if t.isHeader then 1 else 0 :=
  List.countP_cons

lemma headers_append : headers (ts ++ us) = headers ts + headers us :=
  List.countP_append

end

/-! ### Widths -/

lemma addWidths_eq_some {a b c : UInt32} :
    addWidths a b = some c ↔ a.toNat + b.toNat = c.toNat := by
  constructor
  · intro h
    rw [addWidths_toNat h]
  · intro h
    have hlt : a.toNat + b.toNat < Nat.pow 2 32 := by
      rw [h]
      exact c.toNat_lt
    rw [addWidths, if_pos hlt, Option.some.injEq, ← UInt32.toNat_inj, UInt32.toNat_add,
      Nat.mod_eq_of_lt hlt, h]

mutual

/-- A width is the sum of all leaves. -/
lemma width_eq_some : (t : ResolvedType) → (w : UInt32) →
    (t.width = some w ↔ AllStatic t.nodes ∧ sumBits t.nodes = w.toNat)
  | bits v, w => by
    simp [width, nodes, AllStatic, isStatic, sumBits, leafBits, UInt32.toNat_inj]
  | bool, w => by
    have hone : (1 : UInt32) = w ↔ 1 = w.toNat := by
      rw [← UInt32.toNat_inj]
      rfl
    simp [width, nodes, AllStatic, isStatic, sumBits, leafBits, hone]
  | aggregate .struct _ fields, w => by
    rw [width, nodes, allStatic_cons, sumBits_cons, widthFrom_eq_some fields 0 w]
    simp [isStatic, leafBits]
  | aggregate .header _ fields, w => by
    rw [width, nodes, allStatic_cons, sumBits_cons, widthFrom_eq_some fields 0 w]
    simp [isStatic, leafBits]
  | aggregate .headerUnion _ fields, w => by simp [width, nodes, AllStatic, isStatic]
  | stack element size, w => by simp [width, nodes, AllStatic, isStatic]
  | packetSource, w => by simp [width, nodes, AllStatic, isStatic]
  | external _, w => by simp [width, nodes, AllStatic, isStatic]
  | unknown _, w => by simp [width, nodes, AllStatic, isStatic]

lemma widthFrom_eq_some : (fields : List (String × ResolvedType)) → (n w : UInt32) →
    (widthFrom n fields = some w ↔
      AllStatic (fieldNodes fields) ∧ n.toNat + sumBits (fieldNodes fields) = w.toNat)
  | [], n, w => by
    simp [widthFrom, fieldNodes, AllStatic, sumBits, UInt32.toNat_inj]
  | (_, t) :: fields, n, w => by
    simp only [widthFrom, fieldNodes, allStatic_append, sumBits_append, Option.bind_eq_bind,
      Option.bind_eq_some_iff, width_eq_some t, addWidths_eq_some, widthFrom_eq_some fields]
    constructor
    · rintro ⟨v, ⟨ht, hv⟩, m, hm, hfields, hw⟩
      exact ⟨⟨ht, hfields⟩, by omega⟩
    · rintro ⟨⟨ht, hfields⟩, hw⟩
      -- neither the first field nor the sum up to it is larger than the whole
      have hlt := w.toNat_lt
      have hv : (UInt32.ofNat (sumBits t.nodes)).toNat = sumBits t.nodes :=
        UInt32.toNat_ofNat_of_lt' (show _ < 2 ^ 32 by omega)
      have hm : (UInt32.ofNat (n.toNat + sumBits t.nodes)).toNat = n.toNat + sumBits t.nodes :=
        UInt32.toNat_ofNat_of_lt' (show _ < 2 ^ 32 by omega)
      exact ⟨_, ⟨ht, hv.symm⟩, UInt32.ofNat (n.toNat + sumBits t.nodes), by rw [hv, hm], hfields,
        by rw [hm, Nat.add_assoc, hw]⟩

end

/-! ### Flat fields -/

/-- The bits of the fields among leaves. -/
def leafTotal (leaves : List Leaf) : ℕ := BitField.total (leaves.filterMap Leaf.field?)

lemma leafTotal_nil : leafTotal [] = 0 := rfl

lemma leafTotal_append (as bs : List Leaf) :
    leafTotal (as ++ bs) = leafTotal as + leafTotal bs := by
  simp [leafTotal, BitField.total]

lemma leafTotal_field (f : BitField) (leaves : List Leaf) :
    leafTotal (.field f :: leaves) = f.bits.toNat + leafTotal leaves := by
  simp [leafTotal, BitField.total, Leaf.field?]

mutual

/-- The flat fields have the bits of the leaves, and one for each header. -/
lemma leafTotal_leavesAt (path : List String) : (t : ResolvedType) → AllStatic t.nodes →
    leafTotal (leavesAt path t) = sumBits t.nodes + headers t.nodes
  | bits w, _ => by
    simp [leavesAt, leafTotal_field, leafTotal_nil, nodes, sumBits, leafBits, headers, isHeader]
  | bool, _ => by
    simp [leavesAt, leafTotal_field, leafTotal_nil, nodes, sumBits, leafBits, headers, isHeader]
  | aggregate .struct _ fields, h => by
    rw [nodes, allStatic_cons] at h
    simp only [leavesAt, leafTotal_fieldLeaves path fields h.2, nodes, sumBits_cons, headers_cons,
      leafBits, isHeader]
    simp
  | aggregate .header _ fields, h => by
    rw [nodes, allStatic_cons] at h
    simp only [leavesAt, leafTotal_field, leafTotal_fieldLeaves path fields h.2, nodes,
      sumBits_cons, headers_cons, leafBits, isHeader, if_true]
    have hone : (1 : UInt32).toNat = 1 := rfl
    omega
  | aggregate .headerUnion _ fields, h => by simp [nodes, AllStatic, isStatic] at h
  | stack element size, h => by simp [nodes, AllStatic, isStatic] at h
  | packetSource, h => by simp [nodes, AllStatic, isStatic] at h
  | external _, h => by simp [nodes, AllStatic, isStatic] at h
  | unknown _, h => by simp [nodes, AllStatic, isStatic] at h

lemma leafTotal_fieldLeaves (path : List String) : (fields : List (String × ResolvedType)) →
    AllStatic (fieldNodes fields) →
    leafTotal (fieldLeaves path fields) = sumBits (fieldNodes fields) + headers (fieldNodes fields)
  | [], _ => rfl
  | (name, t) :: fields, h => by
    rw [fieldNodes, allStatic_append] at h
    rw [fieldLeaves, leafTotal_append, leafTotal_leavesAt (path ++ [name]) t h.1,
      leafTotal_fieldLeaves path fields h.2, fieldNodes, sumBits_append, headers_append]
    omega

end

/-- All that the flat fields of a bare header lack is its validity bit. -/
lemma total_flatten_bare (t : ResolvedType) :
    BitField.total (t.flatten true) + (if t.isHeader then 1 else 0) =
      BitField.total (t.flatten false) := by
  cases t with
  | aggregate kind name fields =>
    cases kind with
    | header =>
      have hvalid : BitField.total ((aggregate .header name fields).flatten false) =
          (1 : UInt32).toNat + leafTotal (fieldLeaves [] fields) := by
        rw [← leafTotal_field ⟨joinPath ([] ++ [validityName]), 1⟩]
        simp only [flatten, leaves, leavesAt, leafTotal]
      rw [hvalid, Nat.add_comm]
      rfl
    | struct => rfl
    | headerUnion => rfl
  | _ => rfl

/-- **Widths are exact.** A type has a width exactly when all types in it are bits, truth values,
structures and headers and the sum of its leaves has at most 32 bits; the width is this sum. Its
flat fields have one more bit for each header, except for the header itself when it is bare. -/
theorem width_exact (t : ResolvedType) (w : ℕ) :
    (t.width.map UInt32.toNat = some w ↔
      AllStatic t.nodes ∧ sumBits t.nodes = w ∧ w < 2 ^ 32) ∧
    (t.width.map UInt32.toNat = some w →
      BitField.total (t.flatten false) = w + headers t.nodes ∧
      BitField.total (t.flatten true) + (if t.isHeader then 1 else 0) = w + headers t.nodes) := by
  have hwidth : t.width.map UInt32.toNat = some w ↔
      AllStatic t.nodes ∧ sumBits t.nodes = w ∧ w < 2 ^ 32 := by
    rw [Option.map_eq_some_iff]
    constructor
    · rintro ⟨v, hv, rfl⟩
      obtain ⟨hstatic, hsum⟩ := (width_eq_some t v).mp hv
      exact ⟨hstatic, hsum, v.toNat_lt⟩
    · rintro ⟨hstatic, hsum, hlt⟩
      have hv : (UInt32.ofNat w).toNat = w := UInt32.toNat_ofNat_of_lt' hlt
      exact ⟨_, (width_eq_some t _).mpr ⟨hstatic, by rw [hv, hsum]⟩, hv⟩
  refine ⟨hwidth, fun h => ?_⟩
  obtain ⟨hstatic, hsum, -⟩ := hwidth.mp h
  have htotal : BitField.total (t.flatten false) = w + headers t.nodes := by
    rw [← hsum]
    exact leafTotal_leavesAt [] t hstatic
  exact ⟨htotal, by rw [total_flatten_bare, htotal]⟩

/-- A header with headers and structures in it, as wide as can be. -/
def brimming : ResolvedType :=
  .aggregate .header "brimming_t"
    [("mark", .aggregate .header "mark_t" []),
     ("pair", .aggregate .struct "pair_t" [("left", .bits 3), ("right", .bool)]),
     ("rest", .bits 4294967291)]

/-- Its width just fits, and that of its flat fields does not. -/
theorem width_exact_brimming :
    brimming.width.map UInt32.toNat = some (2 ^ 32 - 1) ∧
    BitField.total (brimming.flatten false) = 2 ^ 32 + 1 ∧
    BitField.total (brimming.flatten true) = 2 ^ 32 := by
  have hstatic : AllStatic brimming.nodes := by decide
  have hsum : sumBits brimming.nodes = 2 ^ 32 - 1 := by decide
  have hheaders : headers brimming.nodes = 2 := by decide
  have hwidth := (width_exact brimming (2 ^ 32 - 1)).1.mpr ⟨hstatic, hsum, by omega⟩
  obtain ⟨hflat, hbare⟩ := (width_exact brimming (2 ^ 32 - 1)).2 hwidth
  rw [hheaders] at hflat hbare
  have hheader : brimming.isHeader = true := rfl
  rw [if_pos hheader] at hbare
  exact ⟨hwidth, by omega, by omega⟩

end ResolvedType

end PacketSections
