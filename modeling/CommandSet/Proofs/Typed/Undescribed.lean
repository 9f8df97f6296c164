import CommandSet.Proofs.Protocol.Undescribed
import CommandSet.Typed.MainModule

/-!
# Rust modules without descriptions

The Rust modules show the description of a command above its handler and no other
description.  All else in them is the same for a protocol without descriptions.

Main definition:

- {lit}`Handler.undescribed`: a handler without the description of its command.

Main results:

- Theorem {lit}`bridge_undescribed`: the bridge module does not change.
- Theorem {lit}`mainModule_undescribed`: what is left of the main module.
-/

namespace CommandSet
namespace Typed

/-! ## Attributes at all depths -/

/-- A search that looks at what erasure keeps has the same outcome. -/
theorem anyInForest_undescribed {p : Attribute → Bool} (hp : ∀ att, p att.undescribed = p att)
    (atts : List Attribute) :
    anyInForest p (atts.map Attribute.undescribed) = anyInForest p atts := by
  induction atts using Attribute.forest_induction with
  | nil => rfl
  | cons att rest ihbelow ihrest =>
      have hatt := hp att
      cases att
      rw [Attribute.undescribed_mk] at hatt
      rw [List.map_cons, anyInForest, anyInForest, ihrest, Attribute.undescribed_mk, anyInTree,
        anyInTree, ihbelow, hatt]

theorem bindAll_undescribed (atts : List Attribute) : ∀ place stem : String,
    bindAll place stem (atts.map Attribute.undescribed) = bindAll place stem atts := by
  induction atts using Attribute.forest_induction with
  | nil =>
      intro place stem
      rfl
  | cons att rest ihbelow ihrest =>
      intro place stem
      have hnested := att.hasSubAttributes_undescribed
      cases att
      rw [Attribute.undescribed_mk] at hnested
      rw [List.map_cons, bindAll, bindAll, ihrest, Attribute.undescribed_mk, bind, bind, hnested,
        ihbelow]

theorem fieldDecoders_undescribed (parent : String) (atts : List Attribute) (index : Nat) :
    FieldDecoder.ofAttributes parent index (atts.map Attribute.undescribed) =
      FieldDecoder.ofAttributes parent index atts := by
  induction atts generalizing index with
  | nil => rfl
  | cons att atts ih =>
      rw [List.map_cons, FieldDecoder.ofAttributes, FieldDecoder.ofAttributes, ih,
        att.undescribed_dataType, att.undescribed_name, att.undescribed_optional]

@[simp]
theorem fieldEncoder_undescribed (parent : String) (att : Attribute) :
    FieldEncoder.ofAttribute parent att.undescribed = FieldEncoder.ofAttribute parent att := by
  simp [FieldEncoder.ofAttribute]

theorem fieldEncoders_undescribed (parent : String) (atts : List Attribute) :
    (atts.map Attribute.undescribed).filterMap (FieldEncoder.ofAttribute parent) =
      atts.filterMap (FieldEncoder.ofAttribute parent) := by
  simp [List.filterMap_map]

theorem decoders_undescribed (atts : List Attribute) : ∀ parent : String,
    Decoder.ofForest parent (atts.map Attribute.undescribed) = Decoder.ofForest parent atts := by
  induction atts using Attribute.forest_induction with
  | nil =>
      intro parent
      rfl
  | cons att rest ihbelow ihrest =>
      intro parent
      have hnested := att.hasSubAttributes_undescribed
      cases att
      rw [Attribute.undescribed_mk] at hnested
      rw [List.map_cons, Decoder.ofForest, Decoder.ofForest, ihrest, Attribute.undescribed_mk,
        Decoder.ofTree, Decoder.ofTree, hnested, fieldDecoders_undescribed, ihbelow]

theorem encoders_undescribed (atts : List Attribute) : ∀ parent : String,
    Encoder.ofForest parent (atts.map Attribute.undescribed) = Encoder.ofForest parent atts := by
  induction atts using Attribute.forest_induction with
  | nil =>
      intro parent
      rfl
  | cons att rest ihbelow ihrest =>
      intro parent
      have hnested := att.hasSubAttributes_undescribed
      cases att
      rw [Attribute.undescribed_mk] at hnested
      rw [List.map_cons, Encoder.ofForest, Encoder.ofForest, ihrest, Attribute.undescribed_mk,
        Encoder.ofTree, Encoder.ofTree, hnested, fieldEncoders_undescribed, List.length_map,
        ihbelow]

/-! ## Commands -/

/-- A handler without the description of its command. -/
def Handler.undescribed (handler : Handler) : Handler :=
  { handler with description := "" }

@[simp]
theorem fieldOf_undescribed (parent : String) (att : Attribute) :
    fieldOf parent att.undescribed = fieldOf parent att := by
  simp [fieldOf]

@[simp]
theorem attributeRow_undescribed (parent : String) (att : Attribute) :
    AttributeRow.ofAttribute parent att.undescribed = AttributeRow.ofAttribute parent att := by
  simp [AttributeRow.ofAttribute]

section

variable (cmd : Command)

@[simp]
theorem variant_undescribed :
    CommandVariant.ofCommand cmd.undescribed = CommandVariant.ofCommand cmd :=
  rfl

@[simp]
theorem payload_ofCommand_undescribed :
    PayloadStruct.ofCommand cmd.undescribed = PayloadStruct.ofCommand cmd := by
  simp [PayloadStruct.ofCommand, List.filterMap_map]

@[simp]
theorem table_ofCommand_undescribed :
    AttributeTable.ofCommand cmd.undescribed = AttributeTable.ofCommand cmd := by
  simp [AttributeTable.ofCommand, Function.comp_def]

@[simp]
theorem commandRow_undescribed :
    CommandRow.ofCommand cmd.undescribed = CommandRow.ofCommand cmd := by
  simp [CommandRow.ofCommand]

@[simp]
theorem decoder_undescribed : Decoder.ofCommand cmd.undescribed = Decoder.ofCommand cmd := by
  simp [Decoder.ofCommand, fieldDecoders_undescribed, decoders_undescribed]

@[simp]
theorem encoder_undescribed : Encoder.ofCommand cmd.undescribed = Encoder.ofCommand cmd := by
  simp [Encoder.ofCommand, encoders_undescribed]

@[simp]
theorem executeArm_undescribed : executeArm cmd.undescribed = executeArm cmd := by
  simp [executeArm]

@[simp]
theorem handler_undescribed :
    Handler.ofCommand cmd.undescribed = (Handler.ofCommand cmd).undescribed := by
  simp [Handler.ofCommand, Handler.undescribed, bindAll_undescribed]

end

@[simp]
theorem payload_ofEntry_undescribed (entry : Entry) :
    PayloadStruct.ofEntry entry.undescribed = PayloadStruct.ofEntry entry := by
  simp [PayloadStruct.ofEntry, List.filterMap_map]

@[simp]
theorem table_ofEntry_undescribed (entry : Entry) :
    AttributeTable.ofEntry entry.undescribed = AttributeTable.ofEntry entry := by
  simp [AttributeTable.ofEntry, Function.comp_def]

/-! ## Arms -/

theorem decodeArms_undescribed (commands decoded : List Command) :
    decodeArms (commands.map Command.undescribed) (decoded.map Command.undescribed) =
      decodeArms commands decoded := by
  simp [decodeArms, Function.comp_def]

theorem encodeArms_undescribed (attributes : Bool) (encoded : List Command) :
    encodeArms attributes (encoded.map Command.undescribed) = encodeArms attributes encoded := by
  simp [encodeArms, Function.comp_def]

theorem executeArms_undescribed (commands received : List Command) :
    executeArms (commands.map Command.undescribed) (received.map Command.undescribed) =
      executeArms commands received := by
  simp [executeArms, Function.comp_def]

/-! ## Modules -/

theorem imports_undescribed (protocol : Protocol) (role : Role) :
    Imports.ofProtocol protocol.undescribed role = Imports.ofProtocol protocol role := by
  have hnumbers (att : Attribute) :
      usesVariableLength att.undescribed = usesVariableLength att := by
    simp [usesVariableLength]
  have htext (att : Attribute) : usesText att.undescribed = usesText att := by
    simp [usesText]
  simp [Imports.ofProtocol, Function.comp_def, anyInForest_undescribed hnumbers,
    anyInForest_undescribed htext]

variable (prepared : Prepared) (role : Role)

/-- The bridge module does not show descriptions. -/
theorem bridge_undescribed :
    Bridge.build prepared.undescribed role = Bridge.build prepared role := by
  have hprotocol : prepared.undescribed.protocol = prepared.protocol.undescribed := rfl
  have hnesting : prepared.undescribed.nesting = prepared.nesting := rfl
  simp [Bridge.build, hprotocol, hnesting, imports_undescribed, decodeArms_undescribed,
    encodeArms_undescribed, complexChildrenFirst_undescribed, Function.comp_def, List.flatMap_map]

/-- A main module without the descriptions of commands. -/
theorem mainModule_undescribed :
    MainModule.build prepared.undescribed role =
      { MainModule.build prepared role with
        handlers := (MainModule.build prepared role).handlers.map Handler.undescribed } := by
  have hprotocol : prepared.undescribed.protocol = prepared.protocol.undescribed := rfl
  simp [MainModule.build, hprotocol, executeArms_undescribed, Function.comp_def]

end Typed
end CommandSet
