import Recast.Command.Run
import Recast.Proofs.Document.Text

/-!
# Reading records that were written

A record is written as nested objects and read back by the names of their fields, the kind and the
element types by their own names. Lines and columns are the one thing that may not be read: they
have to fit where an offset fits.

* `CodeRange.HoldsPositions`, `Refactoring.HoldsPositions`: the lines and columns fit;
* `CodeRange.decode?_encode`, `Refactoring.decode?_encode`: a place and a record are read back
  exactly then;
* `read_written_records`: **a list of records is read back exactly when the positions fit**, and so
  is what a run prints of what was found.
-/

namespace Recast

/-- A list that was written is read back exactly when each of its items is. -/
theorem mapM_encode_iff {α : Type} {write : α → Json} {read? : Json → Option α} {xs : List α} :
    (xs.map write).mapM read? = some xs ↔ ∀ x ∈ xs, read? (write x) = some x := by
  refine ⟨fun h => ?_, mapM_encode⟩
  induction xs with
  | nil => exact fun x hx => absurd hx List.not_mem_nil
  | cons x xs ih =>
    rw [List.map_cons, List.mapM_cons, Option.bind_eq_bind, Option.bind_eq_some_iff] at h
    obtain ⟨y, hy, h⟩ := h
    obtain ⟨ys, hys, h⟩ := Option.bind_eq_some_iff.1 h
    obtain ⟨rfl, rfl⟩ := List.cons.inj (Option.some.inj h)
    rw [List.forall_mem_cons]
    exact ⟨hy, ih hys⟩

/-! ## 1. Places -/

theorem ElementType.decode?_name (levels : Nat) (e : ElementType) :
    decode? levels (.str e.name) = some e := ofName?_name e

theorem RefactoringKind.decode?_name (levels : Nat) (k : RefactoringKind) :
    decode? levels (.str k.name) = some k := ofName?_name k

namespace CodeRange

/-- The lines and columns fit where an offset fits. -/
structure HoldsPositions (r : CodeRange) : Prop where
  startLine : r.startLine ≤ Text.maxOffset
  endLine : r.endLine ≤ Text.maxOffset
  startColumn : r.startColumn ≤ Text.maxOffset
  endColumn : r.endColumn ≤ Text.maxOffset

theorem printable_encode (r : CodeRange) : r.encode.Printable := by
  refine .obj ?_
  simp only [List.forall_mem_cons]
  exact ⟨.str _, .nat _, .nat _, .nat _, .nat _, .str _, .str _, .str _, nofun⟩

/-- What is read of a place: its lines and columns, and then all of it. -/
theorem decode?_encode_eq (r : CodeRange) (levels : Nat) :
    decode? (levels + 1) r.encode =
      (Json.nat r.startLine).offset?.bind fun startLine =>
      (Json.nat r.endLine).offset?.bind fun endLine =>
      (Json.nat r.startColumn).offset?.bind fun startColumn =>
      (Json.nat r.endColumn).offset?.bind fun endColumn =>
        some { r with startLine, endLine, startColumn, endColumn } := by
  have hrecord : r.encode.record? fieldNames = some [some (.str r.filePath),
      some (.nat r.startLine), some (.nat r.endLine), some (.nat r.startColumn),
      some (.nat r.endColumn), some (.str r.elementType.name), some (.str r.description),
      some (.str r.codeElement)] := Json.record?_obj (by simp) fieldNames
  have helement := ElementType.decode?_name levels r.elementType
  generalize Json.str r.elementType.name = element at hrecord helement
  rw [decode?, hrecord]
  show ((Json.nat r.startLine).offset?.bind fun startLine =>
    (Json.nat r.endLine).offset?.bind fun endLine =>
    (Json.nat r.startColumn).offset?.bind fun startColumn =>
    (Json.nat r.endColumn).offset?.bind fun endColumn =>
    (ElementType.decode? levels element).bind fun elementType =>
      some { r with startLine, endLine, startColumn, endColumn, elementType }) = _
  rw [helement]
  rfl

/-- **A place is read back exactly when its lines and columns fit.** -/
theorem decode?_encode (r : CodeRange) (levels : Nat) :
    decode? (levels + 1) r.encode = some r ↔ r.HoldsPositions := by
  rw [decode?_encode_eq]
  constructor
  · intro h
    obtain ⟨a, ha, h⟩ := Option.bind_eq_some_iff.1 h
    obtain ⟨b, hb, h⟩ := Option.bind_eq_some_iff.1 h
    obtain ⟨c, hc, h⟩ := Option.bind_eq_some_iff.1 h
    obtain ⟨d, hd, -⟩ := Option.bind_eq_some_iff.1 h
    exact ⟨(Option.ite_none_right_eq_some.1 ha).1, (Option.ite_none_right_eq_some.1 hb).1,
      (Option.ite_none_right_eq_some.1 hc).1, (Option.ite_none_right_eq_some.1 hd).1⟩
  · intro h
    rw [Json.offset?_nat h.startLine, Json.offset?_nat h.endLine, Json.offset?_nat h.startColumn,
      Json.offset?_nat h.endColumn]
    rfl

end CodeRange

/-! ## 2. Records -/

namespace Refactoring

/-- The lines and columns of both places fit. -/
structure HoldsPositions (r : Refactoring) : Prop where
  before : r.before.HoldsPositions
  after : r.after.HoldsPositions

theorem printable_encode (r : Refactoring) : r.encode.Printable := by
  refine .obj ?_
  simp only [List.forall_mem_cons]
  exact ⟨.str _, .str _, r.before.printable_encode, r.after.printable_encode, nofun⟩

/-- **A record is read back exactly when the positions of both places fit.** -/
theorem decode?_encode (r : Refactoring) (levels : Nat) :
    decode? (levels + 2) r.encode = some r ↔ r.HoldsPositions := by
  have hrecord : r.encode.record? fieldNames = some [some (.str r.description),
      some (.str r.kind.name), some r.before.encode, some r.after.encode] :=
    Json.record?_obj (by simp) fieldNames
  have hkind := RefactoringKind.decode?_name (levels + 1) r.kind
  generalize Json.str r.kind.name = kind at hrecord hkind
  have hdecode : decode? (levels + 2) r.encode =
      (CodeRange.decode? (levels + 1) r.before.encode).bind fun before =>
        (CodeRange.decode? (levels + 1) r.after.encode).bind fun after =>
          some { r with before, after } := by
    rw [decode?, hrecord]
    show ((RefactoringKind.decode? (levels + 1) kind).bind fun kind =>
      (CodeRange.decode? (levels + 1) r.before.encode).bind fun before =>
        (CodeRange.decode? (levels + 1) r.after.encode).bind fun after =>
          some { r with kind, before, after }) = _
    rw [hkind]
    rfl
  rw [hdecode]
  constructor
  · intro h
    obtain ⟨before, hbefore, h⟩ := Option.bind_eq_some_iff.1 h
    obtain ⟨after, hafter, h⟩ := Option.bind_eq_some_iff.1 h
    have hr : { r with before, after } = r := Option.some.inj h
    rw [show before = r.before from congrArg Refactoring.before hr] at hbefore
    rw [show after = r.after from congrArg Refactoring.after hr] at hafter
    exact ⟨(r.before.decode?_encode levels).1 hbefore, (r.after.decode?_encode levels).1 hafter⟩
  · intro h
    rw [(r.before.decode?_encode levels).2 h.before, (r.after.decode?_encode levels).2 h.after]
    rfl

theorem printable_list (rs : List Refactoring) : (Json.array (rs.map encode)).Printable := by
  refine .array ?_
  rw [List.forall_mem_map]
  exact fun r _ => r.printable_encode

theorem decodeAll?_encode (rs : List Refactoring) :
    decodeAll? Json.maxLevels (.array (rs.map encode)) = some rs ↔ ∀ r ∈ rs, r.HoldsPositions := by
  show (rs.map encode).mapM (decode? (124 + 2)) = some rs ↔ _
  rw [mapM_encode_iff]
  exact forall₂_congr fun r _ => r.decode?_encode 124

end Refactoring

/-- **A list of records is read back exactly when the lines and columns fit**: every field of every
    record, and of both its places. The same holds of what is printed of a set of records. -/
theorem read_written_records :
    (∀ rs : List Refactoring, Refactoring.listOfText? (Refactoring.listToText rs) = some rs ↔
      ∀ r ∈ rs, r.HoldsPositions) ∧
    ∀ found : Refactorings,
      Refactoring.listOfText? (Invocation.renderFound true found) = some found.records ↔
        ∀ r ∈ found.records, r.HoldsPositions := by
  constructor
  · intro rs
    unfold Refactoring.listOfText? Refactoring.listToText
    rw [Json.parse?_render (Refactoring.printable_list rs)]
    exact Refactoring.decodeAll?_encode rs
  · intro found
    unfold Refactoring.listOfText?
    show (Json.parse? ((Json.array (found.records.map Refactoring.encode)).render ++ "\n")).bind _ =
      _ ↔ _
    rw [Json.parse?_render_newline (Refactoring.printable_list found.records)]
    exact Refactoring.decodeAll?_encode found.records

end Recast
