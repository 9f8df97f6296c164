import CommandSet.Firmware.Bridge
import CommandSet.Firmware.Descriptor
import CommandSet.Firmware.MainHeader
import CommandSet.Proofs.Protocol.Undescribed

/-!
# Firmware without descriptions

The firmware shows descriptions in two places: behind the attributes of the main header and
above the handlers of the main modules.  Everything else in it is the same for a protocol
without descriptions.

Main definition:

- {lit}`ScopeNames.undescribed`: the constants of a scope without descriptions.

Main results:

- Theorems {lit}`mainHeader_undescribed`, {lit}`mainModule_undescribed`: what is left of the
  main header and of a main module.
- Theorems {lit}`bridgeHeader_undescribed`, {lit}`bridge_undescribed`,
  {lit}`descriptor_undescribed`: the other files do not change.
-/

namespace CommandSet
namespace Firmware

/-! ## Statements -/

theorem declareAll_undescribed (atts : List Attribute) : ∀ ancestors : List String,
    declareAll ancestors (atts.map Attribute.undescribed) = declareAll ancestors atts := by
  induction atts using Attribute.forest_induction with
  | nil =>
      intro ancestors
      rfl
  | cons att rest ihbelow ihrest =>
      intro ancestors
      cases att
      rw [List.map_cons, declareAll, declareAll, ihrest, Attribute.undescribed_mk, declare, declare,
        ihbelow]

theorem loadAll_undescribed (protocol : String) (atts : List Attribute) :
    ∀ (ancestors : List String) (width : PresenceWidth) (index : Nat),
      loadAll protocol ancestors width index (atts.map Attribute.undescribed) =
        loadAll protocol ancestors width index atts := by
  induction atts using Attribute.forest_induction with
  | nil =>
      intro ancestors width index
      rfl
  | cons att rest ihbelow ihrest =>
      intro ancestors width index
      cases att
      rw [List.map_cons, loadAll, loadAll, ihrest, Attribute.undescribed_mk, load, load,
        List.length_map, ihbelow]

theorem clearGroup_undescribed (groups : List String) (atts : List Attribute) :
    clearGroup groups (atts.map Attribute.undescribed) = clearGroup groups atts := by
  simp [clearGroup, Function.comp_def]

theorem decodeAll_undescribed (protocol : String) (atts : List Attribute) :
    ∀ (ancestors : List String) (width : PresenceWidth) (index : Nat),
      decodeAll protocol ancestors width index (atts.map Attribute.undescribed) =
        decodeAll protocol ancestors width index atts := by
  induction atts using Attribute.forest_induction with
  | nil =>
      intro ancestors width index
      rfl
  | cons att rest ihbelow ihrest =>
      intro ancestors width index
      cases att
      rw [List.map_cons, decodeAll, decodeAll, ihrest, Attribute.undescribed_mk, decode, decode,
        List.length_map, clearGroup_undescribed, ihbelow]

theorem encodeAll_undescribed (protocol : String) (atts : List Attribute) :
    ∀ (ancestors : List String) (width : PresenceWidth) (index : Nat),
      encodeAll protocol ancestors width index (atts.map Attribute.undescribed) =
        encodeAll protocol ancestors width index atts := by
  induction atts using Attribute.forest_induction with
  | nil =>
      intro ancestors width index
      rfl
  | cons att rest ihbelow ihrest =>
      intro ancestors width index
      cases att
      rw [List.map_cons, encodeAll, encodeAll, ihrest, Attribute.undescribed_mk, encode, encode,
        List.length_map, ihbelow]

/-! ## Functions -/

variable (protocol : String) (cmd : Command)

@[simp]
theorem handlerSignature_undescribed :
    handlerSignature protocol cmd.undescribed = handlerSignature protocol cmd := by
  simp [handlerSignature]

@[simp]
theorem stub_undescribed : Handler.stub protocol cmd.undescribed = Handler.stub protocol cmd := by
  simp [Handler.stub, Handler.locals, Handler.loads, declareAll_undescribed, loadAll_undescribed]

@[simp]
theorem dispatchCase_undescribed :
    DispatchCase.ofCommand protocol cmd.undescribed = DispatchCase.ofCommand protocol cmd := by
  simp [DispatchCase.ofCommand]

@[simp]
theorem decoder_undescribed :
    Decoder.ofCommand protocol cmd.undescribed = Decoder.ofCommand protocol cmd := by
  simp [Decoder.ofCommand, decodeGroup, clearGroup_undescribed, decodeAll_undescribed]

@[simp]
theorem encoder_undescribed :
    Encoder.ofCommand protocol cmd.undescribed = Encoder.ofCommand protocol cmd := by
  simp [Encoder.ofCommand, encodeGroup, encodeAll_undescribed]

/-! ## Structs and tables -/

@[simp]
theorem membersOf_undescribed (parent : String) (att : Attribute) :
    membersOf protocol parent att.undescribed = membersOf protocol parent att := by
  simp [membersOf]

theorem ofGroup_undescribed (typeName parent : String) (atts : List Attribute) :
    Record.ofGroup protocol typeName parent (atts.map Attribute.undescribed) =
      Record.ofGroup protocol typeName parent atts := by
  simp [Record.ofGroup, Function.comp_def, List.flatMap_map]

@[simp]
theorem record_ofCommand_undescribed :
    Record.ofCommand protocol cmd.undescribed = Record.ofCommand protocol cmd :=
  ofGroup_undescribed protocol _ _ cmd.attributes

@[simp]
theorem record_ofEntry_undescribed (entry : Entry) :
    Record.ofEntry protocol entry.undescribed = Record.ofEntry protocol entry := by
  simp [Record.ofEntry, ofGroup_undescribed]

@[simp]
theorem ofCarriers_undescribed (carriers : List Command) :
    Record.ofCarriers protocol (carriers.map Command.undescribed) =
      Record.ofCarriers protocol carriers := by
  simp [Record.ofCarriers, Function.comp_def]

@[simp]
theorem attributeRow_undescribed (parent : String) (att : Attribute) :
    AttributeRow.ofAttribute protocol parent att.undescribed =
      AttributeRow.ofAttribute protocol parent att := by
  simp [AttributeRow.ofAttribute]

@[simp]
theorem table_ofCommand_undescribed :
    AttributeTable.ofCommand protocol cmd.undescribed = AttributeTable.ofCommand protocol cmd := by
  simp [AttributeTable.ofCommand, Function.comp_def]

@[simp]
theorem table_ofComplex_undescribed (att : Attribute) :
    AttributeTable.ofComplex protocol att.undescribed = AttributeTable.ofComplex protocol att := by
  simp [AttributeTable.ofComplex, Function.comp_def]

@[simp]
theorem commandRow_undescribed :
    CommandRow.ofCommand protocol cmd.undescribed = CommandRow.ofCommand protocol cmd := by
  simp [CommandRow.ofCommand]

@[simp]
theorem wireIds_ofScope_undescribed (scope : Scope) :
    WireIds.ofScope protocol scope.undescribed = WireIds.ofScope protocol scope := by
  simp [WireIds.ofScope, Scope.undescribed, Function.comp_def]

/-! ## Files -/

/-- The constants of a scope without descriptions. -/
def ScopeNames.undescribed (names : ScopeNames) : ScopeNames :=
  { names with ordinals := names.ordinals.map fun ordinal => (ordinal.1, "") }

@[simp]
theorem scopeNames_undescribed (scope : Scope) :
    ScopeNames.ofScope protocol scope.undescribed =
      (ScopeNames.ofScope protocol scope).undescribed := by
  simp [ScopeNames.ofScope, ScopeNames.undescribed, Scope.undescribed, Function.comp_def,
    List.filter_map]

variable (prepared : Prepared) (role : Role)

/-- The main header without the descriptions of attributes. -/
theorem mainHeader_undescribed :
    MainHeader.build prepared.undescribed none =
      { MainHeader.build prepared none with
        scopes := (MainHeader.build prepared none).scopes.map ScopeNames.undescribed } := by
  have hprotocol : prepared.undescribed.protocol = prepared.protocol.undescribed := rfl
  have hnesting : prepared.undescribed.nesting = prepared.nesting := rfl
  simp [MainHeader.build, hprotocol, hnesting, scopes_undescribed, complexChildrenFirst_undescribed,
    Function.comp_def]

/-- A main module without the descriptions of commands. -/
theorem mainModule_undescribed :
    MainModule.build prepared.undescribed role none =
      { MainModule.build prepared role none with
        handlers := (prepared.protocol.received role).map fun cmd =>
          ⟨Handler.docOf prepared.protocol.name cmd.undescribed,
            Handler.stub prepared.protocol.name cmd⟩ } := by
  have hprotocol : prepared.undescribed.protocol = prepared.protocol.undescribed := rfl
  simp [MainModule.build, MainModule.handlerOf, hprotocol, Function.comp_def]

/-- The bridge header does not show descriptions. -/
theorem bridgeHeader_undescribed :
    BridgeHeader.build prepared.undescribed = BridgeHeader.build prepared := by
  have hprotocol : prepared.undescribed.protocol = prepared.protocol.undescribed := rfl
  simp [BridgeHeader.build, hprotocol, scopes_undescribed, complexChildrenFirst_undescribed,
    WireIds.ofCommands, Function.comp_def]

/-- A bridge does not show descriptions. -/
theorem bridge_undescribed :
    Bridge.build prepared.undescribed role = Bridge.build prepared role := by
  have hprotocol : prepared.undescribed.protocol = prepared.protocol.undescribed := rfl
  simp [Bridge.build, hprotocol, Function.comp_def]

/-- The descriptor tables do not show descriptions. -/
theorem descriptor_undescribed :
    Descriptor.build prepared.undescribed = Descriptor.build prepared := by
  have hprotocol : prepared.undescribed.protocol = prepared.protocol.undescribed := rfl
  simp [Descriptor.build, hprotocol, complexChildrenFirst_undescribed, Function.comp_def]

end Firmware
end CommandSet
