import JvmClass.ClassFile.Validation
import JvmClass.Proofs.Attribute.Clipping
import Mathlib.Data.List.Forall2

/-!
# JvmClass.Proofs.ClassFile.Findings — the attributes that are reported, and in which order.

`ClassFile.visits` is a list that is put together from the tables of a class.  Here the attributes
to be checked are told by their places instead: `Place` has one constructor for each table that an
attribute can stand in, `ClassFile.attribute?` looks up a place by its positions, and
`Place.Before` orders the places.  The list goes through the places that hold something, in this
order and each once.  So what validation finds is settled by looking up places one at a time
(`ClassFile.invalidAttributes_spec`): no failing attribute is passed over, none is reported twice,
and the location of a finding is that of its place.
-/

namespace JvmClass

/-! ## Places -/

/-- Where an attribute stands, by its position in a table.  The table in a body is told by the
position of the attribute that carries the body, since a method may have several. -/
inductive Place where
  | onClass (position : Nat)
  | onField (member position : Nat)
  | onMethod (member position : Nat)
  | inBody (member carrier position : Nat)
  deriving DecidableEq

namespace Place

/-- The location that is reported for the place. -/
def location : Place → Location
  | onClass _ => .onClass
  | onField member _ => .onField member
  | onMethod member _ => .onMethod member
  | inBody member _ _ => .inBody member

/-- The positions that lead to the place, behind the number of the table that they start in. -/
def path : Place → List Nat
  | onClass position => [0, position]
  | onField member position => [1, member, position]
  | onMethod member position => [2, member, position]
  | inBody member carrier position => [2, member, carrier, position]

/-- The order of the places: the class comes first, then its fields, then its methods, and the
attributes in a body come behind the one that carries it and before the one behind that. -/
def Before (p q : Place) : Prop :=
  p.path < q.path

end Place

/-- The attribute at a place. -/
def ClassFile.attribute? (c : ClassFile) : Place → Option Attribute
  | .onClass position => c.attributes[position]?
  | .onField member position => c.fields[member]?.bind fun m => m.attributes[position]?
  | .onMethod member position => c.methods[member]?.bind fun m => m.attributes[position]?
  | .inBody member carrier position =>
    c.methods[member]?.bind fun m => m.attributes[carrier]?.bind fun a =>
      a.payload.inside[position]?

/-- The finding is that of the attribute at the place. -/
structure ClassFile.FoundAt (c : ClassFile) (p : Place) (f : Finding) : Prop where
  location : f.location = p.location
  violation : ∃ a, c.attribute? p = some a ∧ a.validate c.pool = .error f.violation

/-! ## The places of a class -/

/-- The attributes of a table, each with its place. -/
def placesOf (place : Nat → Place) (table : List Attribute) : List (Place × Attribute) :=
  table.zipIdx.map fun e => (place e.2, e.1)

/-- An attribute of a method and those in its body, each with its place. -/
def placesOfMethod (member : Nat) (e : Attribute × Nat) : List (Place × Attribute) :=
  (.onMethod member e.2, e.1) :: placesOf (.inBody member e.2) e.1.payload.inside

/-- All attributes that are checked, each with its place. -/
def ClassFile.places (c : ClassFile) : List (Place × Attribute) :=
  placesOf .onClass c.attributes ++
    (c.fields.zipIdx.flatMap fun m => placesOf (.onField m.2) m.1.attributes) ++
    c.methods.zipIdx.flatMap fun m => m.1.attributes.zipIdx.flatMap (placesOfMethod m.2)

theorem mem_placesOf_iff {place : Nat → Place} {table : List Attribute} {e : Place × Attribute} :
    e ∈ placesOf place table ↔ ∃ k, table[k]? = some e.2 ∧ place k = e.1 := by
  unfold placesOf
  rw [List.mem_map]
  constructor
  · rintro ⟨⟨a, k⟩, mem, rfl⟩
    exact ⟨k, List.mem_zipIdx_iff_getElem?.mp mem, rfl⟩
  · rintro ⟨k, found, placed⟩
    refine ⟨(e.2, k), List.mem_zipIdx_iff_getElem?.mpr found, ?_⟩
    rw [placed]

theorem mem_placesOfMethod_iff {member : Nat} {d : Attribute × Nat} {e : Place × Attribute} :
    e ∈ placesOfMethod member d ↔ e = (.onMethod member d.2, d.1) ∨
      ∃ k, d.1.payload.inside[k]? = some e.2 ∧ .inBody member d.2 k = e.1 := by
  unfold placesOfMethod
  rw [List.mem_cons, mem_placesOf_iff]

/-- The list holds the places that lead to an attribute, each with that attribute. -/
theorem ClassFile.mem_places_iff {c : ClassFile} {p : Place} {a : Attribute} :
    (p, a) ∈ c.places ↔ c.attribute? p = some a := by
  unfold places
  simp only [List.mem_append, List.mem_flatMap, mem_placesOf_iff, mem_placesOfMethod_iff,
    Prod.exists, List.mem_zipIdx_iff_getElem?, Prod.mk.injEq]
  -- each kind of place occurs in one part of the list only
  cases p <;> simp [attribute?, Option.bind_eq_some_iff]

/-! ## Order -/

/-- A stretch of the list: its places are reached by way of these positions, and are in order. -/
structure Stretch (front : List Nat) (l : List (Place × Attribute)) : Prop where
  within : ∀ e ∈ l, front <+: e.1.path
  inOrder : l.Pairwise fun d e => d.1.Before e.1

/-- Of two stretches, the one that takes the smaller position where they part comes first. -/
theorem Stretch.before (front : List Nat) {i j : Nat} {l m : List (Place × Attribute)}
    (h : i < j) (hl : Stretch (front ++ [i]) l) (hm : Stretch (front ++ [j]) m) :
    ∀ d ∈ l, ∀ e ∈ m, d.1.Before e.1 := by
  intro d hd e he
  obtain ⟨x, hx⟩ := hl.within d hd
  obtain ⟨y, hy⟩ := hm.within e he
  unfold Place.Before
  rw [← hx, ← hy, List.append_assoc, List.append_assoc]
  exact List.append_left_lt (List.cons_lt_cons_iff.mpr (.inl h))

/-- The positions of a table go up. -/
theorem pairwise_zipIdx {α : Type} (table : List α) :
    table.zipIdx.Pairwise fun d e => d.2 < e.2 := by
  have up : (table.zipIdx.map Prod.snd).Pairwise (· < ·) := by
    rw [List.zipIdx_map_snd]
    exact List.pairwise_lt_range'
  exact List.pairwise_map.mp up

/-- The stretches of the elements of a table make up one stretch. -/
theorem stretch_flatMap {α : Type} (front : List Nat) {f : α × Nat → List (Place × Attribute)}
    (table : List α) (each : ∀ e, Stretch (front ++ [e.2]) (f e)) :
    Stretch front (table.zipIdx.flatMap f) where
  within e mem := by
    obtain ⟨d, -, mem⟩ := List.mem_flatMap.mp mem
    exact (List.prefix_append front [d.2]).trans ((each d).within e mem)
  inOrder := by
    refine List.pairwise_flatMap.mpr ⟨fun d _ => (each d).inOrder, ?_⟩
    exact (pairwise_zipIdx table).imp fun {d e} h => (each d).before front h (each e)

theorem stretch_placesOf {front : List Nat} (place : Nat → Place)
    (paths : ∀ k, (place k).path = front ++ [k]) (table : List Attribute) :
    Stretch front (placesOf place table) := by
  unfold placesOf
  rw [List.map_eq_flatMap]
  refine stretch_flatMap front table fun e => ⟨fun d mem => ?_, List.pairwise_singleton _ _⟩
  have path : d.1.path = front ++ [e.2] := by rw [List.mem_singleton.mp mem, paths]
  exact path ▸ List.prefix_rfl

theorem stretch_placesOfMethod (member : Nat) (e : Attribute × Nat) :
    Stretch [2, member, e.2] (placesOfMethod member e) := by
  have inside : Stretch [2, member, e.2] (placesOf (.inBody member e.2) e.1.payload.inside) :=
    stretch_placesOf _ (fun _ => rfl) _
  refine ⟨List.forall_mem_cons.mpr ⟨List.prefix_rfl, inside.within⟩, ?_⟩
  refine List.pairwise_cons.mpr ⟨fun d mem => ?_, inside.inOrder⟩
  -- the path of the carrier goes on to those of the attributes in its body
  obtain ⟨k, -, same⟩ := mem_placesOf_iff.mp mem
  rw [← same]
  have longer : [2, member, e.2] ++ [] < [2, member, e.2] ++ [k] :=
    List.append_left_lt (List.nil_lt_cons k [])
  exact longer

/-- The list is in order. -/
theorem ClassFile.pairwise_places (c : ClassFile) :
    c.places.Pairwise fun d e => d.1.Before e.1 := by
  have onClass : Stretch [0] (placesOf .onClass c.attributes) :=
    stretch_placesOf _ (fun _ => rfl) _
  have onFields := stretch_flatMap [1] c.fields fun m =>
    stretch_placesOf (.onField m.2) (fun _ => rfl) m.1.attributes
  have onMethods := stretch_flatMap [2] c.methods fun m =>
    stretch_flatMap [2, m.2] m.1.attributes (stretch_placesOfMethod m.2)
  have fieldsBehind := Stretch.before [] (by decide) onClass onFields
  have methodsBehind := Stretch.before [] (by decide) onClass onMethods
  have methodsLast := Stretch.before [] (by decide) onFields onMethods
  refine List.pairwise_append.mpr ⟨?_, onMethods.inOrder, fun d mem => ?_⟩
  · exact List.pairwise_append.mpr ⟨onClass.inOrder, onFields.inOrder, fieldsBehind⟩
  · exact (List.mem_append.mp mem).elim (methodsBehind d) (methodsLast d)

/-! ## Validation goes through the places -/

/-- With the locations in place of the places, the list of a table is the table. -/
theorem map_placesOf (place : Nat → Place) (location : Location)
    (located : ∀ k, (place k).location = location) (table : List Attribute) :
    (placesOf place table).map (fun e => (e.1.location, e.2)) =
      table.map fun a => (location, a) := by
  calc (placesOf place table).map (fun e => (e.1.location, e.2))
      = table.zipIdx.map fun e => (location, e.1) := by
        unfold placesOf
        rw [List.map_map]
        exact List.map_congr_left fun e _ => Prod.ext (located e.2) rfl
    _ = (table.zipIdx.map Prod.fst).map fun a => (location, a) := List.map_map.symm
    _ = table.map fun a => (location, a) := by rw [List.zipIdx_map_fst]

theorem map_placesOfMethod (member : Nat) (e : Attribute × Nat) :
    (placesOfMethod member e).map (fun e => (e.1.location, e.2)) =
      ClassFile.visitsOfMethod member e.1 := by
  have inside := map_placesOf (.inBody member e.2) (.inBody member) (fun _ => rfl)
    e.1.payload.inside
  unfold placesOfMethod ClassFile.visitsOfMethod
  rw [List.map_cons, inside]
  obtain ⟨⟨name, payload⟩, k⟩ := e
  cases payload <;> rfl

namespace ClassFile

theorem visits_eq (c : ClassFile) : c.visits = c.places.map fun e => (e.1.location, e.2) := by
  have onClass := map_placesOf .onClass .onClass (fun _ => rfl) c.attributes
  have onFields := fun m : Member × Nat =>
    map_placesOf (.onField m.2) (.onField m.2) (fun _ => rfl) m.1.attributes
  have onMethods : ∀ m : Member × Nat,
      m.1.attributes.zipIdx.flatMap (fun e => visitsOfMethod m.2 e.1) =
        m.1.attributes.flatMap (visitsOfMethod m.2) := by
    intro m
    rw [← List.flatMap_map, List.zipIdx_map_fst]
  unfold visits places
  simp only [List.map_append, List.map_flatMap, onClass, onFields, map_placesOfMethod, onMethods]

/-! ## Findings -/

/-- What validation says of a class with these findings. -/
def verdictOf : List Finding → Except Violation Unit
  | [] => .ok ()
  | f :: _ => .error f.violation

theorem verdictOf_eq_ok_iff {findings : List Finding} :
    verdictOf findings = .ok () ↔ findings = [] := by
  cases findings with
  | nil => exact ⟨fun _ => rfl, fun _ => rfl⟩
  | cons f rest => exact ⟨nofun, nofun⟩

/-- The first failure in a list of attributes is the first of what is found in it. -/
theorem forM_validate_eq (pool : Pool) (visits : List (Location × Attribute)) :
    (visits.forM fun v => v.2.validate pool) =
      verdictOf (visits.filterMap fun v => finding? pool v.1 v.2) := by
  induction visits with
  | nil => rfl
  | cons v visits ih =>
      show (v.2.validate pool >>= fun _ => visits.forM fun v => v.2.validate pool) = _
      rw [List.filterMap_cons, finding?]
      cases v.2.validate pool with
      | ok => exact ih
      | error violation => rfl

theorem finding?_eq_none_iff {pool : Pool} {location : Location} {a : Attribute} :
    finding? pool location a = none ↔ a.validate pool = .ok () := by
  unfold finding?
  cases a.validate pool with
  | ok => exact ⟨fun _ => rfl, fun _ => rfl⟩
  | error v => exact ⟨nofun, nofun⟩

/-- A class is valid just if no attribute fails. -/
theorem validate_eq_ok_iff {c : ClassFile} :
    c.validate.result = .ok () ↔ ∀ v ∈ c.visits, v.2.validate c.pool = .ok () := by
  show (c.visits.forM fun v => v.2.validate c.pool) = .ok () ↔ _
  rw [forM_validate_eq, verdictOf_eq_ok_iff, List.filterMap_eq_nil_iff]
  exact forall₂_congr fun _ _ => finding?_eq_none_iff

/-- The findings on some of the attributes are those at the places of the ones that fail. -/
theorem forall₂_foundAt (c : ClassFile) {l : List (Place × Attribute)}
    (placed : ∀ e ∈ l, c.attribute? e.1 = some e.2) :
    List.Forall₂ c.FoundAt
      ((l.filter fun e => decide (e.2.validate c.pool ≠ .ok ())).map Prod.fst)
      (l.filterMap fun e => finding? c.pool e.1.location e.2) := by
  induction l with
  | nil => exact .nil
  | cons e l ih =>
      obtain ⟨first, others⟩ := List.forall_mem_cons.mp placed
      rw [List.filterMap_cons, finding?]
      cases verdict : e.2.validate c.pool with
      | ok =>
          rw [List.filter_cons_of_neg (by simp [verdict])]
          exact ih others
      | error v =>
          rw [List.filter_cons_of_pos (by simp [verdict])]
          exact .cons ⟨rfl, e.2, first, verdict⟩ (ih others)

/-- What is found is found by going through the places. -/
theorem invalidAttributes_eq (c : ClassFile) : c.invalidAttributes.result =
    c.places.filterMap fun e => finding? c.pool e.1.location e.2 := by
  unfold invalidAttributes
  rw [visits_eq, List.filterMap_map]
  rfl

/-- What is found are the attributes that fail, each at its place and in the order of the places.
The two ways to validate agree: one stops at what the other finds first.  There is a notice for
each finding, and only when all are asked for. -/
theorem invalidAttributes_spec (c : ClassFile) :
    (∃ failing : List Place, failing.Pairwise Place.Before ∧
      (∀ p, p ∈ failing ↔ ∃ a, c.attribute? p = some a ∧ a.validate c.pool ≠ .ok ()) ∧
      List.Forall₂ c.FoundAt failing c.invalidAttributes.result) ∧
    (c.validate.result = .ok () ↔ c.invalidAttributes.result = []) ∧
    c.validate.result = verdictOf c.invalidAttributes.result ∧
    c.invalidAttributes.notices =
      c.invalidAttributes.result.map (fun f => .invalidAt f.location f.violation) ∧
    c.validate.notices = [] := by
  have verdict : c.validate.result = verdictOf c.invalidAttributes.result :=
    forM_validate_eq c.pool c.visits
  refine ⟨⟨(c.places.filter fun e => decide (e.2.validate c.pool ≠ .ok ())).map Prod.fst, ?_,
    fun p => ?_, ?_⟩, ?_, verdict, rfl, rfl⟩
  · exact List.pairwise_map.mpr (c.pairwise_places.filter _)
  · rw [List.mem_map]
    simp [mem_places_iff]
  · rw [invalidAttributes_eq]
    exact forall₂_foundAt c fun e mem => mem_places_iff.mp mem
  · rw [verdict, verdictOf_eq_ok_iff]

/-- The second body of the method is reported behind what is in the first, under one location. -/
example : (invalidAttributes
    { minorVersion := 0, majorVersion := 0x37, pool := ⟨#[.utf8 "Code", .utf8 "NestHost"]⟩,
      flags := ⟨0⟩, thisClass := 0, superClass := 0, interfaces := [],
      fields := [⟨⟨0⟩, 0, 0, [⟨2, .raw []⟩]⟩, ⟨⟨0⟩, 0, 0, [⟨2, .nestHost 1⟩]⟩],
      methods := [⟨⟨0⟩, 0, 0, [⟨1, .code ⟨0, 0, [], [], [⟨0, .raw []⟩]⟩⟩,
        ⟨3, .code ⟨0, 0, [], [], [⟨2, .nestHost 0⟩]⟩⟩]⟩],
      attributes := [⟨4, .raw []⟩] }).result =
    [⟨.onClass, .nameOutOfBounds 4 3⟩,
      ⟨.onField 1, .wrongTag .nestHost 1 (.exactly .classRef) (some .utf8)⟩,
      ⟨.inBody 0, .nameOutOfBounds 0 3⟩, ⟨.onMethod 0, .nameOutOfBounds 3 3⟩,
      ⟨.inBody 0, .outOfBounds .nestHost 0 3⟩] := by
  rfl

end ClassFile

end JvmClass
