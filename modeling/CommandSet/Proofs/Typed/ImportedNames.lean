import CommandSet.Proofs.Text.Tokens
import CommandSet.Proofs.Typed.ItemNames

/-!
# Imports of the Rust bridge

An import is a line of its own, with one item behind a path or several of them between braces.
A bridge module imports a function on numbers of variable length, or the type of texts, where
a search through its attributes finds one that asks for it.  The search goes through all depths,
and so meets the members of all groups.

Main definition:

- {lit}`importedNames`: the names that a module imports.

Main results:

- Theorem {lit}`importedNames_lines`: the imports of a module are read off its lines.
- Theorems {lit}`decoding_imported_iff`, {lit}`encoding_imported_iff`, {lit}`text_imported_iff`:
  when a module imports what it does not always import.
-/

namespace CommandSet
namespace Typed

/-! ## Reading imports -/

/-- Lines that import. -/
def isImport (line : String) : Bool :=
  ['u', 's', 'e', ' '].isPrefixOf line.toList

/-- Whether a path ends before a mark. -/
def endsPath (c : Char) : Bool :=
  c == ',' || c == '}' || c == ';'

/-- The names at the ends of paths. -/
def importedFrom : List Token → List (List Char)
  | .name text :: .mark c :: rest =>
      if endsPath c then text :: importedFrom rest else importedFrom rest
  | _ :: rest => importedFrom rest
  | [] => []

/-- The names that a module imports. -/
def importedNames (lines : List String) : List (List Char) :=
  (lines.filter isImport).flatMap fun line => importedFrom (tokens line)

section Line

/-- An item with a mark behind it. -/
theorem lexes_item {item : String} (h : IsLexeme item.toList) {c : Char} {chars : List Char}
    (hmark : (isTemplate false ('@' :: c :: chars) && endsInMark ('@' :: c :: chars)) = true) :
    Lexes (item ++ String.ofList (c :: chars))
      (fillTokens (tokens (String.ofList ('@' :: c :: chars))) [item.toList]) := by
  rw [Bool.and_eq_true] at hmark
  refine lexes_of_fill ?_ hmark.1 hmark.2 (List.forall_mem_singleton.mpr h)
  rw [String.toList_append, String.toList_ofList]
  simp [fill, fill_nil]

/-- Several items are read one after the other. -/
theorem importedFrom_items {items : List String} (h : ∀ item ∈ items, IsLexeme item.toList) :
    importedFrom (tokens (String.intercalate ", " items ++ r"};")) =
      items.map String.toList := by
  induction items with
  | nil => decide
  | cons item items ih =>
      rw [List.forall_mem_cons] at h
      cases items with
      | nil =>
          rw [String.intercalate_singleton, (lexes_item h.1 (by decide)).tokens_eq, tokens_ofList]
          rfl
      | cons next items =>
          have hitem : Lexes (item ++ ", ") [.name item.toList, .mark ','] := by
            have hlexes := @lexes_item item h.1 ',' [' '] (by decide)
            rwa [tokens_ofList] at hlexes
          rw [String.intercalate_cons_cons, String.append_assoc, tokens, String.toList_append,
            hitem, ← tokens]
          exact congrArg (item.toList :: ·) (ih h.2)

/-- An import brings in its items, if its path has none. -/
theorem importedFrom_useLine {path : String} {front : List Token}
    (hfront : Lexes ("use " ++ path) front)
    (hpath : ∀ rest, importedFrom (front ++ rest) = importedFrom rest) {items : List String}
    (h : ∀ item ∈ items, IsLexeme item.toList) :
    importedFrom (tokens (Imports.useLine path items)) = items.map String.toList := by
  unfold Imports.useLine
  split
  next item =>
    have hitem : Lexes (item ++ ";") [.name item.toList, .mark ';'] := by
      have hlexes := @lexes_item item (h item (List.mem_singleton_self item)) ';' [] (by decide)
      rwa [tokens_ofList] at hlexes
    rw [String.append_assoc, (hfront.append hitem).tokens_eq, hpath]
    rfl
  next =>
    have hbrace : Lexes r"{" [.mark '{'] := by
      have hlexes := @Lexes.fixed ['{'] (by decide)
      rwa [tokens_ofList] at hlexes
    rw [String.append_assoc, tokens, String.toList_append, hfront.append hbrace, ← tokens,
      List.append_assoc, hpath]
    exact importedFrom_items h

end Line

/-! ## Imports of a module -/

theorem startsItem_of_isImport {line : String} (h : isImport line = true) :
    startsItem line = true := by
  obtain ⟨rest, hrest⟩ := List.isPrefixOf_iff_prefix.mp h
  rw [startsItem, ← hrest]
  rfl

theorem isImport_useLine {imports : Imports} {line : String} (h : line ∈ imports.useLines) :
    isImport line = true := by
  obtain ⟨rest, rfl⟩ := Imports.exists_of_mem_useLines h
  rw [isImport, String.toList_append, String.toList_ofList]
  rfl

/-- No other item is an import. -/
theorem isImport_item (item : Item) : isImport (String.ofList item.chars) = false := by
  rw [isImport, String.toList_ofList, Item.chars]
  split
  · rfl
  · cases hkind : item.kind <;> rfl

/-- The imports of a module are the lines written for them. -/
theorem filter_isImport_lines (bridge : Bridge) :
    bridge.lines.filter isImport = bridge.imports.useLines := by
  have hitems : (bridge.items.map fun item => String.ofList item.chars).filter isImport = [] := by
    rw [List.filter_eq_nil_iff, List.forall_mem_map]
    exact fun item _ => Bool.eq_false_iff.mp (isImport_item item)
  have hfilter : bridge.lines.filter isImport =
      (bridge.lines.filter startsItem).filter isImport := by
    rw [List.filter_filter]
    refine List.filter_congr fun line _ => ?_
    cases himport : isImport line with
    | true => rw [startsItem_of_isImport himport, Bool.and_self]
    | false => rw [Bool.false_and]
  rw [hfilter, filter_startsItem_lines, List.filter_append, hitems, List.append_nil,
    List.filter_eq_self]
  exact fun line hline => isImport_useLine hline

/-- The imports of a module are read off its lines. -/
theorem importedNames_lines {bridge : Bridge}
    (hvalidator : ∀ item ∈ bridge.imports.validator, IsLexeme item.toList)
    (hnumbers : ∀ item ∈ bridge.imports.numbers, IsLexeme item.toList) :
    importedNames bridge.lines = (bridge.imports.validator ++ bridge.imports.numbers ++
      if bridge.imports.text then ["CString"] else []).map String.toList := by
  have hfixed (path : List Char)
      (h : (isTemplate false ('u' :: 's' :: 'e' :: ' ' :: path) &&
        endsInMark ('u' :: 's' :: 'e' :: ' ' :: path)) = true) :
      Lexes ("use " ++ String.ofList path) (tokensFrom [] ('u' :: 's' :: 'e' :: ' ' :: path)) := by
    have huse : "use " ++ String.ofList path =
        String.ofList ('u' :: 's' :: 'e' :: ' ' :: path) := by
      rw [← String.toList_inj, String.toList_append]
      repeat rw [String.toList_ofList]
      rfl
    rw [huse, ← tokens_ofList]
    exact Lexes.fixed h
  have hvalidator : importedFrom (tokens
      (Imports.useLine "lcsf_lib::lcsf_validator::" bridge.imports.validator)) =
        bridge.imports.validator.map String.toList :=
    importedFrom_useLine (hfixed _ (by decide)) (fun _ => rfl) hvalidator
  have hnumbers : importedFrom (tokens
      (Imports.useLine "lcsf_lib::vle::" bridge.imports.numbers)) =
        bridge.imports.numbers.map String.toList :=
    importedFrom_useLine (hfixed _ (by decide)) (fun _ => rfl) hnumbers
  have htext : importedFrom (tokens "use std::ffi::CString;") = ["CString".toList] := rfl
  rw [importedNames, filter_isImport_lines, Imports.useLines]
  simp only [List.flatMap_append, List.map_append, List.flatMap_cons, List.flatMap_nil,
    List.append_nil, hvalidator]
  congr 1
  · congr 1
    split
    next hnone => rw [List.isEmpty_iff.mp hnone]; rfl
    next => rw [List.flatMap_cons, List.flatMap_nil, List.append_nil, hnumbers]
  · split
    · rw [List.flatMap_cons, List.flatMap_nil, List.append_nil, htext]
      rfl
    · rfl

/-! ## Searches -/

/-- A search goes through all depths. -/
theorem anyInForest_iff {p : Attribute → Bool} (atts : List Attribute) :
    anyInForest p atts = true ↔ ∃ att ∈ Attribute.forest atts, p att = true := by
  induction atts using Attribute.forest_induction with
  | nil => exact ⟨nofun, nofun⟩
  | cons att rest ihbelow ihrest =>
      have htree : anyInTree p att = (p att || anyInForest p att.children) := by
        cases att
        rw [anyInTree]
      rw [anyInForest, htree, Bool.or_eq_true, Bool.or_eq_true, ihbelow, ihrest, Attribute.forest,
        Attribute.subtree_eq]
      simp only [List.cons_append, List.mem_cons, List.mem_append, or_and_right, exists_or,
        exists_eq_left, or_assoc]

/-- A search through commands meets the members of their groups. -/
theorem any_anyInForest_iff {p : Attribute → Bool} {cmds : List Command}
    (h : ∀ cmd ∈ cmds, Shaped (Attribute.forest cmd.attributes)) :
    (cmds.any fun cmd => anyInForest p cmd.attributes) = true ↔
      ∃ group ∈ cmds.flatMap Command.groups, ∃ att ∈ group.members, p att = true := by
  have hcmd {cmd : Command} (hmem : cmd ∈ cmds) : anyInForest p cmd.attributes = true ↔
      ∃ group ∈ cmd.groups, ∃ att ∈ group.members, p att = true := by
    rw [anyInForest_iff]
    simp only [(Command.forest_perm_groups (h cmd hmem)).mem_iff, List.mem_flatMap]
    constructor
    · rintro ⟨att, ⟨group, hgroup, hatt⟩, hp⟩
      exact ⟨group, hgroup, att, hatt, hp⟩
    · rintro ⟨group, hgroup, att, hatt, hp⟩
      exact ⟨att, ⟨group, hgroup, hatt⟩, hp⟩
  rw [List.any_eq_true]
  constructor
  · rintro ⟨cmd, hmem, hany⟩
    obtain ⟨group, hgroup, hatt⟩ := (hcmd hmem).mp hany
    exact ⟨group, List.mem_flatMap.mpr ⟨cmd, hmem, hgroup⟩, hatt⟩
  · rintro ⟨group, hgroup, hatt⟩
    obtain ⟨cmd, hmem, hgroup⟩ := List.mem_flatMap.mp hgroup
    exact ⟨cmd, hmem, (hcmd hmem).mpr ⟨group, hgroup, hatt⟩⟩

/-! ## Imports of a protocol -/

section Protocol

variable {protocol : Protocol}

/-- The items of the validator library that a module can import. -/
def validatorItems : List String :=
  ["LcsfAttDesc", "LcsfCmdDesc", "LcsfDataType", "LcsfProtDesc", "LcsfValidAtt",
    "LcsfValidAttPayload", "LcsfValidCmd"]

theorem validator_subset (protocol : Protocol) (role : Role) :
    (Imports.ofProtocol protocol role).validator ⊆ validatorItems := by
  unfold Imports.ofProtocol
  dsimp only
  split <;> split <;> decide

/-- A module imports functions on numbers and the type of texts besides those items. -/
theorem mem_importedNames_iff (role : Role) {name : String} (h : name ∉ validatorItems) :
    name.toList ∈ importedNames (Bridge.build (Prepared.ofProtocol protocol) role).lines ↔
      name ∈ (Imports.ofProtocol protocol role).numbers ∨
        (Imports.ofProtocol protocol role).text = true ∧ name = "CString" := by
  have hvalidator : ∀ item ∈ validatorItems, IsLexeme item.toList := by
    simp only [validatorItems, List.forall_mem_cons]
    exact ⟨.fixed rfl, .fixed rfl, .fixed rfl, .fixed rfl, .fixed rfl, .fixed rfl, .fixed rfl,
      List.forall_mem_nil _⟩
  have hnumbers : ∀ item ∈ (Imports.ofProtocol protocol role).numbers, IsLexeme item.toList := by
    unfold Imports.ofProtocol
    refine List.forall_mem_append.mpr ⟨?_, ?_⟩
    all_goals
      split
      · exact List.forall_mem_singleton.mpr (.fixed rfl)
      · exact List.forall_mem_nil _
  have hother : name ∉ (Imports.ofProtocol protocol role).validator := fun hmem =>
    h (validator_subset protocol role hmem)
  have himports : (Bridge.build (Prepared.ofProtocol protocol) role).imports =
      Imports.ofProtocol protocol role := rfl
  have hnames := @importedNames_lines (Bridge.build (Prepared.ofProtocol protocol) role)
  rw [himports] at hnames
  rw [hnames (fun item hitem => hvalidator item (validator_subset protocol role hitem)) hnumbers,
    List.mem_map_of_injective fun _ _ => String.toList_inj.mp]
  simp [hother]

theorem decoding_imported_iff (hwell : WellFormed protocol) (role : Role) :
    "vle_decode".toList ∈ importedNames (Bridge.build (Prepared.ofProtocol protocol) role).lines ↔
      ∃ group ∈ decodedGroups protocol role, ∃ att ∈ group.members,
        usesVariableLength att = true := by
  have hshaped : ∀ cmd ∈ protocol.decoded role, Shaped (Attribute.forest cmd.attributes) :=
    fun cmd hcmd => forall_attributes_iff.mp hwell.children cmd (List.mem_of_mem_filter hcmd)
  rw [mem_importedNames_iff role (by decide), decodedGroups, ← any_anyInForest_iff hshaped]
  simp [Imports.ofProtocol]

theorem encoding_imported_iff (hwell : WellFormed protocol) (role : Role) :
    "vle_encode".toList ∈ importedNames (Bridge.build (Prepared.ofProtocol protocol) role).lines ↔
      ∃ group ∈ encodedGroups protocol role, ∃ att ∈ group.members,
        usesVariableLength att = true := by
  have hshaped : ∀ cmd ∈ protocol.encoded role, Shaped (Attribute.forest cmd.attributes) :=
    fun cmd hcmd => forall_attributes_iff.mp hwell.children cmd (List.mem_of_mem_filter hcmd)
  rw [mem_importedNames_iff role (by decide), encodedGroups, ← any_anyInForest_iff hshaped]
  simp [Imports.ofProtocol]

theorem text_imported_iff (hwell : WellFormed protocol) (role : Role) :
    "CString".toList ∈ importedNames (Bridge.build (Prepared.ofProtocol protocol) role).lines ↔
      ∃ group ∈ protocol.groups, ∃ att ∈ group.members, usesText att = true := by
  have hshaped : ∀ cmd ∈ protocol.carriers, Shaped (Attribute.forest cmd.attributes) :=
    fun cmd hcmd => forall_attributes_iff.mp hwell.children cmd (List.mem_of_mem_filter hcmd)
  have hcarriers : (protocol.carriers.any fun cmd => anyInForest usesText cmd.attributes) =
      protocol.commands.any fun cmd => anyInForest usesText cmd.attributes := by
    rw [Protocol.carriers, List.any_filter]
    congr 1
    funext cmd
    cases hcmd : cmd.attributes <;> simp [Command.hasAttributes, hcmd, anyInForest]
  rw [mem_importedNames_iff role (by decide), Protocol.groups, ← any_anyInForest_iff hshaped,
    hcarriers]
  simp [Imports.ofProtocol]

end Protocol

end Typed
end CommandSet
