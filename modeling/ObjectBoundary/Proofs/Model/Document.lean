import ObjectBoundary.Model.Registry
import ObjectBoundary.Proofs.Json.Records

/-!
# Reading back interface models

The text of a model gives back the model, whatever texts stand in it, over the whole range of
enumerators, and however many declarations there are. So a document and the text that is written for
what it declares register alike.
-/

namespace ObjectBoundary

open Json

namespace Json

/-- What is written can be spelled out and gives back what it was written from. -/
structure Faithful {α : Type} (encode : α → Json) (decode : Json → Decoded α) : Prop where
  spelled : ∀ a, Spelled (encode a)
  decoded : ∀ a, decode (encode a) = .ok a

theorem faithful_bool : Faithful .bool asBool := ⟨.bool, fun _ => rfl⟩

/-- Integers of 64 bits lie between the bounds that are read. -/
theorem asInteger_toInt (n : Int64) :
    asInteger Int64.minValue.toInt Int64.maxValue.toInt (.integer n.toInt) = .ok n.toInt :=
  if_pos ⟨Int64.le_iff_toInt_le.mp (Int64.minValue_le n),
    Int64.le_iff_toInt_le.mp (Int64.le_maxValue n)⟩

namespace Faithful

variable {α : Type} {encode : α → Json} {decode : Json → Decoded α}

/-- A list is read back item by item. -/
theorem list (faithful : Faithful encode decode) :
    Faithful (fun items => .array (items.map encode)) (asList decode) :=
  ⟨spelled_array_map faithful.spelled, asList_map faithful.decoded⟩

theorem decode_indented (faithful : Faithful encode decode) (a : α) :
    Json.decode decode (encode a).indented = .ok a :=
  (Json.decode_indented decode (faithful.spelled a)).trans (faithful.decoded a)

end Faithful

end Json

/-! ### Declarations -/

theorem EnumMember.faithful : Faithful toJson ofJson where
  spelled m := spelled_ofFields (by simp [spelled_ofText, Spelled.integer])
  decoded m := by
    have value := asInteger_toInt m.value
    rw [ofJson, toJson, record_ofFields]
    · simp only [List.map_cons, List.map_nil, required_some, asText_ofText, value, bind,
        Except.bind, pure, Except.pure, Int64.ofInt_toInt]
    · rfl
    · decide

theorem EnumDecl.faithful : Faithful toJson ofJson where
  spelled e := spelled_ofFields (by simp [spelled_ofText, EnumMember.faithful.list.spelled])
  decoded e := by
    rw [ofJson, toJson, record_ofFields]
    · simp [EnumMember.faithful.list.decoded, bind, Except.bind, pure, Except.pure]
    · rfl
    · decide

theorem PropertyDecl.faithful : Faithful toJson ofJson where
  spelled p := spelled_ofFields (by simp [spelled_ofText, Spelled.bool])
  decoded p := by
    rw [ofJson, toJson, record_ofFields]
    · simp [faithful_bool.decoded, bind, Except.bind, pure, Except.pure]
    · rfl
    · decide

theorem ParameterDecl.faithful : Faithful toJson ofJson where
  spelled p := spelled_ofFields (by simp [spelled_ofText])
  decoded p := by
    rw [ofJson, toJson, record_ofFields]
    · simp [bind, Except.bind, pure, Except.pure]
    · rfl
    · decide

theorem MethodDecl.faithful : Faithful toJson ofJson where
  spelled m := spelled_ofFields (by simp [spelled_ofText, ParameterDecl.faithful.list.spelled])
  decoded m := by
    rw [ofJson, toJson, record_ofFields]
    · simp [ParameterDecl.faithful.list.decoded, bind, Except.bind, pure, Except.pure]
    · rfl
    · decide

theorem InterfaceDecl.faithful : Faithful toJson ofJson where
  spelled i := spelled_ofFields (by
    simp [spelled_ofText, PropertyDecl.faithful.list.spelled, MethodDecl.faithful.list.spelled])
  decoded i := by
    rw [ofJson, toJson, record_ofFields]
    · simp [PropertyDecl.faithful.list.decoded, MethodDecl.faithful.list.decoded, bind, Except.bind,
        pure, Except.pure]
    · rfl
    · decide

theorem Model.faithful : Faithful toJson ofJson where
  spelled m := spelled_ofFields (by
    simp [spelled_ofText, EnumDecl.faithful.list.spelled, InterfaceDecl.faithful.list.spelled])
  decoded m := by
    rw [ofJson, toJson, record_ofFields]
    · simp [EnumDecl.faithful.list.decoded, InterfaceDecl.faithful.list.decoded, bind, Except.bind,
        pure, Except.pure]
    · rfl
    · decide

theorem Model.parse_print (m : Model) : parse m.print = .ok m := faithful.decode_indented m

namespace Registry

/-- The text of a model gives back the model. So what is written for a document that can be read
registers like the document itself: it is accepted with the same report and the same registry, or
rejected for the same reason. -/
theorem printed_model_loads_alike :
    (∀ m : Model, Model.parse m.print = .ok m) ∧
    ∀ (text : String) (m : Model), Model.parse text = .ok m →
      ∀ r : Registry, r.loadText m.print = r.loadText text := by
  refine ⟨Model.parse_print, fun text m read r => ?_⟩
  rw [loadText, loadText, Model.parse_print, read]

/-- A document with an unknown field, a record in the form of an array and an escape registers like
what is written for it. -/
theorem terse_document_loads_alike :
    let text := "\x7b\"note\":1e400,\"enums\":[[\"Level\",\"int64_t\"," ++
      "[\x7b\"value\":-9223372036854775808,\"name\":\"a\\u0000\"\x7d]]]\x7d"
    let m : Model := { enums := [⟨"Level", "int64_t", [⟨"a\x00", Int64.minValue⟩]⟩] }
    Model.parse text = .ok m ∧ text ≠ m.print ∧ loadText {} m.print = loadText {} text := by
  intro text m
  have read : Model.parse text = .ok m := by decide +kernel
  exact ⟨read, by decide +kernel, printed_model_loads_alike.2 text m read {}⟩

end Registry

end ObjectBoundary
