import Recast.Document.Json
import Recast.Proofs.Document.Layout
import Recast.Proofs.Json.Finite
import Recast.Proofs.Json.RoundTrip

/-!
# Reading a document that was written

A document is written as nested records and read back by the names of their fields. The one thing
that is lost is what is nested too deeply to be read: a node takes two levels, one for itself and
one for the list of its children.

* `Json.record?_obj`: a record is read back field by field;
* `Outline.depth`: the levels of a tree, the root being the first;
* `Outline.decode?_encode`: a node is read back exactly when the levels suffice for its depth;
* `Document.decode?_encode`: the same for a document;
* `read_written_document`: **the text of a document is read as that document exactly when neither
  tree has more than sixty-three levels**, and otherwise it is unreadable.
-/

namespace Recast

/-! ## 1. Records -/

namespace Json

theorem valuesOf_cons (name k : String) (v : Json) (fs : List (Option String × Json)) :
    valuesOf name ((some k, v) :: fs) =
      if k = name then v :: valuesOf name fs else valuesOf name fs := by
  by_cases h : k = name
  · simp [valuesOf, h]
  · simp [valuesOf, h]

/-- Under names that differ, the values under a name are the one that is looked up. -/
theorem valuesOf_obj {fields : List (String × Json)} (h : (fields.map Prod.fst).Nodup)
    (name : String) :
    valuesOf name (fields.map fun (k, v) => (some k, v)) = (fields.lookup name).toList := by
  induction fields with
  | nil => rfl
  | cons f fields ih =>
    obtain ⟨k, v⟩ := f
    obtain ⟨hk, hfields⟩ := List.nodup_cons.1 h
    rw [List.map_cons, valuesOf_cons, ih hfields, List.lookup_cons]
    by_cases hname : k = name
    · -- the name does not come again
      have hmissing : fields.lookup name = none := by
        refine List.lookup_eq_none_iff.2 fun f hf => bne_iff_ne.2 fun h' => hk ?_
        exact List.mem_map.2 ⟨f, hf, (hname.trans h').symm⟩
      rw [if_pos hname, hmissing, hname, beq_self_eq_true]
      rfl
    · rw [if_neg hname, beq_false_of_ne fun h' => hname h'.symm]

theorem field?_obj {fields : List (String × Json)} (h : (fields.map Prod.fst).Nodup)
    (name : String) :
    field? name (fields.map fun (k, v) => (some k, v)) = some (fields.lookup name) := by
  rw [field?, valuesOf_obj h]
  cases fields.lookup name <;> rfl

/-- **A record that was written is read back field by field.** -/
theorem record?_obj {fields : List (String × Json)} (h : (fields.map Prod.fst).Nodup)
    (names : List String) :
    (obj fields).record? names = some (names.map fun name => fields.lookup name) := by
  have hkeys : (fields.map fun (k, v) => (some k, v)).all (fun f => f.1.isSome) = true := by
    rw [List.all_map, List.all_eq_true]
    exact fun _ _ => rfl
  have hfields : ∀ names : List String,
      names.mapM (fun name => field? name (fields.map fun (k, v) => (some k, v))) =
        some (names.map fun name => fields.lookup name) := by
    intro names
    induction names with
    | nil => rfl
    | cons name names ih =>
      rw [List.mapM_cons, field?_obj h, ih]
      rfl
  rw [obj, record?, if_pos hkeys, hfields]

theorem Printable.obj {fields : List (String × Json)} (h : ∀ f ∈ fields, f.2.Printable) :
    (Json.obj fields).Printable := by
  refine .object (fun f hf => ?_) fun f hf => ?_
  · obtain ⟨g, -, rfl⟩ := List.mem_map.1 hf
    rfl
  · obtain ⟨g, hg, rfl⟩ := List.mem_map.1 hf
    exact h g hg

theorem holdable_obj {levels : Nat} (hlevels : 0 < levels) {fields : List (String × Json)}
    (h : ∀ f ∈ fields, f.2.holdable (levels - 1) = true) : (obj fields).holdable levels = true := by
  have hfields : holdable.holdableFields (levels - 1) (fields.map fun (k, v) => (some k, v)) =
      true := by
    induction fields with
    | nil => rfl
    | cons f fields ih =>
      rw [List.forall_mem_cons] at h
      rw [List.map_cons, holdable.holdableFields, h.1, ih h.2]
      rfl
  rw [obj, holdable, decide_eq_true hlevels, hfields]
  rfl

theorem offset?_nat {n : Nat} (h : n ≤ Text.maxOffset) : (nat n).offset? = some n := by
  show (if n ≤ Text.maxOffset then some n else none) = some n
  rw [if_pos h]

end Json

/-! ## 2. Trees -/

namespace Outline

mutual

/-- The levels of an outline, the top being the first. -/
def depth : Outline → Nat
  | .node _ _ _ _ children => depthAll children + 1

/-- The levels of a list of outlines. -/
def depthAll : List Outline → Nat
  | [] => 0
  | o :: os => max o.depth (depthAll os)

end

theorem depth_pos (o : Outline) : 0 < o.depth := by
  obtain ⟨kind, label, pos, length, children⟩ := o
  rw [depth]
  exact Nat.succ_pos _

/-- Every position and every length is an offset. -/
def HoldsOffsets (o : Outline) : Prop :=
  ∀ x ∈ o.nodes, x.pos ≤ Text.maxOffset ∧ x.length ≤ Text.maxOffset

instance (o : Outline) : Decidable o.HoldsOffsets :=
  inferInstanceAs (Decidable (∀ x ∈ o.nodes, x.pos ≤ Text.maxOffset ∧ x.length ≤ Text.maxOffset))

/-- The fields of a node as they are read back: what was left out is missing. -/
theorem record?_encode (kind : Kind) (label : String) (pos length : Nat) (children : List Outline) :
    (encode (.node kind label pos length children)).record? fieldNames =
      some [some (.str kind.name), if label.isEmpty then none else some (.str label),
        some (.nat pos), some (.nat length),
        if children.isEmpty then none else some (.array (encodeAll children))] := by
  rw [encode]
  cases label.isEmpty <;> cases children.isEmpty <;>
    exact Json.record?_obj (by simp) fieldNames

/-- A node is made of its fields when the list of its children is read. -/
theorem ofFields?_encode (levels : Nat) (below? : Json → Option (List Outline)) (o : Outline)
    (h : o.pos ≤ Text.maxOffset ∧ o.length ≤ Text.maxOffset) :
    (o.encode.record? fieldNames).bind (ofFields? levels below?) =
      (if o.children.isEmpty then some [] else below? (.array (encodeAll o.children))).map
        (.node o.kind o.label o.pos o.length) := by
  obtain ⟨kind, label, pos, length, children⟩ := o
  have hkind : Kind.decode? levels (.str kind.name) = some kind := by
    show some (Kind.ofName kind.name) = some kind
    rw [Kind.ofName_name]
  have hlabel : Json.optional? "" Json.string?
      (if label.isEmpty then none else some (.str label)) = some label := by
    split
    · rename_i hempty
      rw [String.isEmpty_iff.1 hempty]
      rfl
    · rfl
  have hpos : offsetOfJson? (.nat pos) = some pos := Json.offset?_nat h.1
  have hlength : offsetOfJson? (.nat length) = some length := Json.offset?_nat h.2
  have hchildren : Json.optional? [] below?
      (if children.isEmpty then none else some (.array (encodeAll children))) =
        if children.isEmpty then some [] else below? (.array (encodeAll children)) := by
    split <;> rfl
  rw [record?_encode, Option.bind_some, ofFields?, hkind, hlabel, hpos, hlength, hchildren]
  exact (Option.map_eq_bind ..).symm

mutual

/-- **A node is read back exactly when the levels suffice for its depth.** -/
theorem decode?_encode : (o : Outline) → (levels : Nat) → o.HoldsOffsets →
    decode? levels o.encode = if 2 * o.depth ≤ levels + 1 then some o else none
  | .node kind label pos length children, 0, _ => by
    rw [decode?, depth, if_neg (by omega)]
  | .node kind label pos length children, 1, h => by
    rw [HoldsOffsets, nodes, List.forall_mem_cons] at h
    rw [decode?, depth]
    show Option.bind _ (ofFields? 0 fun _ => none) = _
    rw [ofFields?_encode _ _ _ h.1]
    cases children with
    | nil => rfl
    | cons o os =>
      have hpos := o.depth_pos
      show none = _
      rw [depthAll, if_neg (by omega)]
  | .node kind label pos length children, levels + 2, h => by
    rw [HoldsOffsets, nodes, List.forall_mem_cons] at h
    have hchildren := mapM_decode?_encodeAll children levels h.2
    rw [decode?, depth]
    show Option.bind _ (ofFields? (levels + 1) _) = _
    rw [ofFields?_encode _ _ _ h.1]
    show Option.map _ (if children.isEmpty then some [] else (encodeAll children).mapM _) = _
    rw [hchildren]
    cases children with
    | nil =>
      show some _ = _
      rw [depthAll, if_pos (by omega)]
      rfl
    | cons o os =>
      show Option.map _ (if 2 * depthAll (o :: os) ≤ levels + 1 then _ else _) = _
      by_cases hlevels : 2 * depthAll (o :: os) ≤ levels + 1
      · rw [if_pos hlevels, if_pos (by omega)]
        rfl
      · rw [if_neg hlevels, if_neg (by omega)]
        rfl

theorem mapM_decode?_encodeAll : (os : List Outline) → (levels : Nat) →
    (∀ x ∈ nodesAll os, x.pos ≤ Text.maxOffset ∧ x.length ≤ Text.maxOffset) →
    (encodeAll os).mapM (decode? levels) = if 2 * depthAll os ≤ levels + 1 then some os else none
  | [], levels, _ => by
    rw [encodeAll, depthAll, if_pos (by omega)]
    rfl
  | o :: os, levels, h => by
    rw [nodesAll, List.forall_mem_append] at h
    rw [encodeAll, List.mapM_cons, decode?_encode o levels h.1,
      mapM_decode?_encodeAll os levels h.2, depthAll]
    by_cases ho : 2 * o.depth ≤ levels + 1
    · by_cases hos : 2 * depthAll os ≤ levels + 1
      · rw [if_pos ho, if_pos hos, if_pos (by omega)]
        rfl
      · rw [if_pos ho, if_neg hos, if_neg (by omega)]
        rfl
    · rw [if_neg ho]
      show none = _
      rw [if_neg (by omega)]

end

mutual

theorem printable_encode : (o : Outline) → o.encode.Printable
  | .node kind label pos length children => by
    have hlabel : ∀ f ∈ if label.isEmpty then [] else [("label", Json.str label)],
        f.2.Printable := by
      split
      · exact fun f hf => absurd hf List.not_mem_nil
      · exact List.forall_mem_singleton.2 (.str label)
    have hchildren : ∀ f ∈ if children.isEmpty then [] else
        [("children", Json.array (encodeAll children))], f.2.Printable := by
      split
      · exact fun f hf => absurd hf List.not_mem_nil
      · exact List.forall_mem_singleton.2 (.array (printable_encodeAll children))
    have hkind : (Json.str kind.name).Printable := .str kind.name
    have hpos : (Json.nat pos).Printable := .nat pos
    have hlength : (Json.nat length).Printable := .nat length
    rw [encode]
    refine .obj ?_
    rw [List.forall_mem_append, List.forall_mem_append, List.forall_mem_append]
    refine ⟨⟨⟨List.forall_mem_singleton.2 hkind, hlabel⟩, ?_⟩, hchildren⟩
    rw [List.forall_mem_cons]
    exact ⟨hpos, List.forall_mem_singleton.2 hlength⟩

theorem printable_encodeAll : (os : List Outline) → ∀ j ∈ encodeAll os, j.Printable
  | [] => by
    rw [encodeAll]
    exact fun j hj => absurd hj List.not_mem_nil
  | o :: os => by
    rw [encodeAll, List.forall_mem_cons]
    exact ⟨printable_encode o, printable_encodeAll os⟩

end

end Outline

namespace TreeDocument

theorem decode?_encode (d : TreeDocument) (levels : Nat) (h : d.root.HoldsOffsets) :
    decode? (levels + 1) d.encode = if 2 * d.root.depth ≤ levels + 1 then some d else none := by
  have hrecord : d.encode.record? fieldNames = some [some (.str d.text), some d.root.encode] :=
    Json.record?_obj (by simp) fieldNames
  have hroot := Outline.decode?_encode d.root levels h
  rw [decode?, hrecord]
  show (Outline.decode? levels d.root.encode).bind _ = _
  rw [hroot]
  split <;> rfl

theorem printable_encode (d : TreeDocument) : d.encode.Printable := by
  refine .obj ?_
  rw [List.forall_mem_cons, List.forall_mem_singleton]
  exact ⟨.str d.text, d.root.printable_encode⟩

end TreeDocument

/-! ## 3. Pairs and edits -/

/-- A list that was written is read back when each of its items is. -/
theorem mapM_encode {α : Type} {write : α → Json} {read? : Json → Option α} {xs : List α}
    (h : ∀ x ∈ xs, read? (write x) = some x) : (xs.map write).mapM read? = some xs := by
  induction xs with
  | nil => rfl
  | cons x xs ih =>
    rw [List.forall_mem_cons] at h
    rw [List.map_cons, List.mapM_cons, h.1, ih h.2]
    rfl

theorem decodePair?_encode {levels : Nat} (hlevels : 0 < levels) {p : Nat × Nat}
    (h : p.1 ≤ Text.maxOffset ∧ p.2 ≤ Text.maxOffset) :
    decodePair? levels (.array [.nat p.1, .nat p.2]) = some p := by
  rw [decodePair?, if_pos hlevels, Json.offset?_nat h.1, Json.offset?_nat h.2]
  rfl

theorem decodePairs?_encode (levels : Nat) {ps : List (Nat × Nat)}
    (h : ∀ p ∈ ps, p.1 ≤ Text.maxOffset ∧ p.2 ≤ Text.maxOffset) :
    decodePairs? (levels + 2) (.array (ps.map fun p => .array [.nat p.1, .nat p.2])) = some ps := by
  rw [decodePairs?]
  exact mapM_encode fun p hp => decodePair?_encode (Nat.succ_pos _) (h p hp)

namespace Edit

/-- The fields of an edit: its name, its node and the label it gives, and nothing but strings next
    to the number of the node. -/
theorem exists_fields (e : Edit) : ∃ fields, e.encode = .obj fields ∧
    (fields.map Prod.fst).Nodup ∧ fields.lookup "action" = some (.str e.name) ∧
    fields.lookup "node" = some (.nat e.node) ∧ fields.lookup "label" = e.newLabel?.map .str ∧
    ∀ f ∈ fields, f.2 = .nat e.node ∨ ∃ s, f.2 = .str s := by
  refine ⟨_, rfl, ?_⟩
  cases e with
  | insert n | delete n | update n label | move n =>
    simp [name, node, newLabel?, List.lookup_cons]

/-- An edit is held whole before its name is known. -/
theorem holdable_encode (e : Edit) {levels : Nat} (hlevels : 0 < levels)
    (h : e.node ≤ Text.maxOffset) : e.encode.holdable levels = true := by
  obtain ⟨fields, hencode, -, -, -, -, hvalues⟩ := e.exists_fields
  rw [hencode]
  refine Json.holdable_obj hlevels fun f hf => ?_
  rcases hvalues f hf with hnode | ⟨s, hs⟩
  · rw [hnode]
    exact Json.finite_ofNat (Nat.lt_of_le_of_lt h (by decide))
  · rw [hs]
    rfl

theorem printable_encode (e : Edit) : e.encode.Printable := by
  obtain ⟨fields, hencode, -, -, -, -, hvalues⟩ := e.exists_fields
  rw [hencode]
  refine .obj fun f hf => ?_
  rcases hvalues f hf with hnode | ⟨s, hs⟩
  · rw [hnode]
    exact .nat e.node
  · rw [hs]
    exact .str s

theorem decode?_encode (e : Edit) {levels : Nat} (hlevels : 0 < levels)
    (h : e.node ≤ Text.maxOffset) : decode? levels e.encode = some e := by
  obtain ⟨fields, hencode, hnames, haction, hnode, hlabel, -⟩ := e.exists_fields
  have hfield := Json.field?_obj hnames
  unfold decode?
  rw [if_pos (e.holdable_encode hlevels h), hencode]
  show (Json.field? "action" _).bind _ = _
  rw [hfield, haction]
  cases e with
  | insert n | delete n | move n =>
    show (Json.field? "node" _).bind _ = _
    rw [hfield, hnode]
    show Option.map _ (Json.nat n).offset? = _
    rw [Json.offset?_nat (n := n) h]
    rfl
  | update n label =>
    show ((Json.field? "node" _).bind fun _ => (Json.field? "label" _).bind _) = _
    rw [hfield, hfield, hnode, hlabel]
    show (Json.nat n).offset?.bind _ = _
    rw [Json.offset?_nat (n := n) h]
    rfl

theorem decodeAll?_encode (levels : Nat) {es : List Edit}
    (h : ∀ e ∈ es, e.node ≤ Text.maxOffset) :
    decodeAll? (levels + 2) (.array (es.map encode)) = some es := by
  rw [decodeAll?]
  exact mapM_encode fun e he => e.decode?_encode (Nat.succ_pos _) (h e he)

end Edit

/-! ## 4. Documents -/

namespace Document

/-- Every position, every length and every number of a node is an offset. -/
structure HoldsOffsets (d : Document) : Prop where
  before : d.before.root.HoldsOffsets
  after : d.after.root.HoldsOffsets
  mapping : ∀ p ∈ d.mapping, p.1 ≤ Text.maxOffset ∧ p.2 ≤ Text.maxOffset
  script : ∀ e ∈ d.script, e.node ≤ Text.maxOffset

theorem printable_encode (d : Document) : d.encode.Printable := by
  have hpairs : ∀ j ∈ d.mapping.map fun p => Json.array [.nat p.1, .nat p.2], j.Printable := by
    rw [List.forall_mem_map]
    intro p _
    refine .array ?_
    rw [List.forall_mem_cons, List.forall_mem_singleton]
    exact ⟨.nat p.1, .nat p.2⟩
  have hedits : ∀ j ∈ d.script.map Edit.encode, j.Printable := by
    rw [List.forall_mem_map]
    exact fun e _ => e.printable_encode
  refine .obj ?_
  rw [List.forall_mem_cons, List.forall_mem_cons, List.forall_mem_cons, List.forall_mem_cons,
    List.forall_mem_singleton]
  exact ⟨.str d.path, d.before.printable_encode, d.after.printable_encode, .array hpairs,
    .array hedits⟩

/-- **A document is read back exactly when the levels suffice for both trees.** -/
theorem decode?_encode (d : Document) (levels : Nat) (h : d.HoldsOffsets) :
    decode? (levels + 3) d.encode =
      if 2 * d.before.root.depth ≤ levels + 2 ∧ 2 * d.after.root.depth ≤ levels + 2 then some d
      else none := by
  have hbefore := d.before.decode?_encode (levels + 1) h.before
  have hafter := d.after.decode?_encode (levels + 1) h.after
  have hpairs := decodePairs?_encode levels h.mapping
  have hedits := Edit.decodeAll?_encode levels h.script
  have hrecord : d.encode.record? fieldNames = some [some (.str d.path), some d.before.encode,
      some d.after.encode, some (.array (d.mapping.map fun p => .array [.nat p.1, .nat p.2])),
      some (.array (d.script.map Edit.encode))] := Json.record?_obj (by simp) fieldNames
  generalize Json.array (d.mapping.map _) = pairs at hpairs hrecord
  generalize Json.array (d.script.map _) = edits at hedits hrecord
  rw [decode?, hrecord]
  show (TreeDocument.decode? (levels + 2) d.before.encode).bind
    (fun before => (TreeDocument.decode? (levels + 2) d.after.encode).bind fun after =>
      (decodePairs? (levels + 2) pairs).bind fun mapping =>
        (Edit.decodeAll? (levels + 2) edits).bind fun script =>
          some { path := d.path, before, after, mapping, script : Document }) = _
  rw [hbefore, hafter, hpairs, hedits]
  by_cases hb : 2 * d.before.root.depth ≤ levels + 2
  · by_cases ha : 2 * d.after.root.depth ≤ levels + 2
    · rw [if_pos hb, if_pos ha, if_pos ⟨hb, ha⟩]
      rfl
    · rw [if_pos hb, if_neg ha, if_neg fun h => ha h.2]
      rfl
  · rw [if_neg hb]
    show none = _
    rw [if_neg fun h => hb h.1]

end Document

/-- **The text of a document is read as that document exactly when neither of its trees has more
    than sixty-three levels**; if one has, the text is unreadable. -/
theorem read_written_document (d : Document) (h : d.HoldsOffsets) :
    (Document.ofText d.toText = .ok d ↔ d.before.root.depth ≤ 63 ∧ d.after.root.depth ≤ 63) ∧
      (¬ (d.before.root.depth ≤ 63 ∧ d.after.root.depth ≤ 63) →
        Document.ofText d.toText = .error .unreadable) := by
  have hparse : Json.parse? d.toText = some d.encode := Json.parse?_render d.printable_encode
  have hdecode : Document.decode? Json.maxLevels d.encode =
      if d.before.root.depth ≤ 63 ∧ d.after.root.depth ≤ 63 then some d else none := by
    rw [Json.maxLevels, d.decode?_encode 124 h]
    refine if_congr ?_ rfl rfl
    omega
  unfold Document.ofText
  rw [hparse, Option.bind_some, hdecode]
  by_cases hdepth : d.before.root.depth ≤ 63 ∧ d.after.root.depth ≤ 63
  · rw [if_pos hdepth]
    exact ⟨⟨fun _ => hdepth, fun _ => rfl⟩, fun hnot => absurd hdepth hnot⟩
  · rw [if_neg hdepth]
    exact ⟨⟨nofun, fun hd => absurd hd hdepth⟩, fun _ => rfl⟩

/-- A block with `n` blocks inside each other. -/
def nestedBlocks : Nat → Outline
  | 0 => .node .block "" 0 0 []
  | n + 1 => .node .block "" 0 0 [nestedBlocks n]

/-- A document with such a tree before and a single block after, in which the innermost block gets a
    label that has to be escaped. -/
def blockDocument (n : Nat) : Document where
  path := "A.java"
  before := ⟨"", nestedBlocks n⟩
  after := ⟨"", nestedBlocks 0⟩
  mapping := [(0, 0)]
  script := [.update n "\"\n\x01é"]

theorem read_written_blockDocument :
    Document.ofText (blockDocument 62).toText = .ok (blockDocument 62) ∧
      Document.ofText (blockDocument 63).toText = .error .unreadable := by
  have hblocks : ∀ n < 64, (nestedBlocks n).HoldsOffsets := by decide +kernel
  have hfits : ∀ n < 64, (blockDocument n).HoldsOffsets := by
    intro n hn
    have hpair : 0 ≤ Text.maxOffset ∧ 0 ≤ Text.maxOffset := by decide
    have hnode : n ≤ Text.maxOffset := Nat.le_trans (Nat.le_of_lt hn) (by decide)
    exact ⟨hblocks n hn, hblocks 0 (by decide), List.forall_mem_singleton.2 hpair,
      List.forall_mem_singleton.2 hnode⟩
  constructor
  · exact (read_written_document _ (hfits 62 (by decide))).1.2 (by decide +kernel)
  · exact (read_written_document _ (hfits 63 (by decide))).2 (by decide +kernel)

end Recast
