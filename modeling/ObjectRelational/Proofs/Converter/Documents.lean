import ObjectRelational.Proofs.Converter.Null
import ObjectRelational.Proofs.Json.Reading

/-! # Documents in columns

A document is bound as its text, in a type wrapper or without one, and a client hands it back as a
text or as bytes. The styles differ in wrappers and placeholders only, so that each reads what any of
them has written. The text `null` is the document null and no null of the database.

* `Converter.write_document`: a document is written whatever it holds;
* `Converter.document_comes_back`: one with integers for numbers is read back unless it is too deep.
-/

namespace ObjectRelational

set_option autoImplicit false

/-! ## Deep documents -/

namespace Json

/-- A document within as many arrays. -/
def enclosed (j : Json) : Nat → Json
  | 0 => j
  | n + 1 => .array [j.enclosed n]

theorem Integral.enclosed {j : Json} (h : j.Integral) (n : Nat) : (j.enclosed n).Integral := by
  induction n with
  | zero => exact h
  | succ n ih => exact .array (List.forall_mem_singleton.2 ih)

theorem depth_enclosed (j : Json) (n : Nat) : (j.enclosed n).depth = n + j.depth := by
  induction n with
  | zero => exact (Nat.zero_add _).symm
  | succ n ih =>
    rw [Json.enclosed, depth, depthItems, depthItems, ih]
    omega

end Json

namespace Converter

variable {j : Json} {native stored : Value}

/-! ## Writing -/

theorem write_document (style : JsonStyle) (h : native.untyped = .json j) :
    ∃ stored, (json style).write native = .ok stored ∧ stored.untyped = .text j.text := by
  unfold write
  rw [h]
  cases style with
  | binary => exact ⟨.typed "jsonb" (.text j.text), rfl, rfl⟩
  | plain | cast => exact ⟨.text j.text, rfl, rfl⟩

theorem write_json_eq_null (style : JsonStyle) :
    (json style).write native = .ok .null ↔ native.isNull = true := by
  constructor
  · intro hwrite
    by_contra hnull
    cases isNull_of_write hwrite (Bool.eq_false_of_not_eq_true hnull)
  · intro hnull
    unfold write
    rw [(Value.isNull_eq_true_iff native).1 hnull]

/-! ## Reading -/

theorem read_json_of_text (style : JsonStyle) {s : String} (h : stored.untyped = .text s) :
    (json style).read stored = jsonOf (Json.read? s) := by
  unfold read
  rw [h]

theorem read_json_of_bytes (style : JsonStyle) {s : String}
    (h : stored.untyped = .bytes s.toUTF8.data.toList) :
    (json style).read stored = jsonOf (Json.read? s) := by
  unfold read
  rw [h, ← Json.readBytes?_toUTF8]

theorem read_json_eq_null (style : JsonStyle) :
    (json style).read stored = .ok .null ↔ stored.isNull = true := by
  constructor
  · intro hread
    by_contra hnull
    cases isNull_of_read hread (Bool.eq_false_of_not_eq_true hnull)
  · exact read_of_isNull

/-! ## There and back -/

/-- Every document is written. What comes back, as a text or as bytes, is the document if arrays and
objects nest at most 127 deep in it, and is refused otherwise. Null is written and read as null, and
no document is. -/
theorem document_comes_back (h : j.Integral) (writer reader : JsonStyle) :
    (∀ native : Value, native.untyped = .json j →
      ∃ stored, (json writer).write native = .ok stored ∧ stored.untyped = .text j.text) ∧
    (∀ stored : Value,
      stored.untyped = .text j.text ∨ stored.untyped = .bytes j.text.toUTF8.data.toList →
      (json reader).read stored = if j.depth ≤ 127 then .ok (.json j) else .error .malformedDocument) ∧
    (∀ native, (json writer).write native = .ok .null ↔ native.isNull = true) ∧
    ∀ stored, (json reader).read stored = .ok .null ↔ stored.isNull = true := by
  refine ⟨fun native => write_document writer, ?_, fun native => write_json_eq_null writer,
    fun stored => read_json_eq_null reader⟩
  intro stored hstored
  have hread : (json reader).read stored = jsonOf (Json.read? j.text) :=
    hstored.elim (read_json_of_text reader) (read_json_of_bytes reader)
  rw [hread, h.read?_text, WrittenJson.depthLimit]
  split <;> rfl

/-- The integers at the ends of the range, by name. -/
def limits : Json :=
  .object [("greatest", .number (.integer 18446744073709551615)),
    ("least", .number (.integer (-9223372036854775808)))]

theorem document_comes_back_limits :
    (limits.enclosed 126).Integral ∧ (limits.enclosed 127).Integral ∧
    (∃ stored, (json .binary).write (.json (limits.enclosed 127)) = .ok stored ∧
      stored.untyped = .text (limits.enclosed 127).text) ∧
    (json .plain).read (.bytes (limits.enclosed 126).text.toUTF8.data.toList) =
      .ok (.json (limits.enclosed 126)) ∧
    (json .plain).read (.text (limits.enclosed 127).text) = .error .malformedDocument := by
  have hlimits : limits.Integral := by
    refine .object (List.pairwise_pair.2 (by decide)) fun member hmember => ?_
    obtain rfl | rfl := List.mem_pair.1 hmember <;> exact .integer (by decide)
  have hdepth : ∀ n, (limits.enclosed n).depth = n + 1 := fun n => limits.depth_enclosed n
  obtain ⟨hwrite, hrefuse, -⟩ := document_comes_back (hlimits.enclosed 127) .binary .plain
  have hrefused := hrefuse (.text (limits.enclosed 127).text) (.inl rfl)
  have hread := (document_comes_back (hlimits.enclosed 126) .binary .plain).2.1
    (.bytes (limits.enclosed 126).text.toUTF8.data.toList) (.inr rfl)
  rw [hdepth, if_pos (by decide)] at hread
  rw [hdepth, if_neg (by decide)] at hrefused
  exact ⟨hlimits.enclosed 126, hlimits.enclosed 127, hwrite _ rfl, hread, hrefused⟩

end Converter

end ObjectRelational
