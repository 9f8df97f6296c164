import CommandSet.Proofs.Firmware.Enumerators
import CommandSet.Proofs.Firmware.Nesting
import CommandSet.Proofs.Firmware.Visits
import CommandSet.Proofs.Protocol.Groups
import CommandSet.Proofs.Text.Between
import CommandSet.Proofs.Text.Blocks

/-!
# Declared types

The main header declares a struct for every payload group and the union of all commands.  The
type definitions are read off its lines, each with the texts of its members, and a member is read
as the name of its type, a star, its own name and an extent.

Main definitions:

- {lit}`Typedef`, {lit}`typedefs`: the type definitions on some lines.
- {lit}`Declaration`, {lit}`declaration?`: what a text declares.
- {lit}`typeLines`: the lines of a main header in front of its prototypes.
- {lit}`MainHeader.structs`: the structs that a header is made with.
- {lit}`Group.typeName`, {lit}`Group.record`: the type and the struct of a group.
- {lit}`Protocol.records`, {lit}`Protocol.typedefs`: the structs and the union of a protocol and
  their definitions.

Main results:

- Theorem {lit}`typedefs_mainHeader`: a main header defines its structs and its union, in their
  order.
- Theorem {lit}`Member.read_declaration`: the declaration of a member is read back.
- Theorems {lit}`structs_build`, {lit}`typedefs_build`: the structs and type definitions of a
  protocol.
-/

namespace CommandSet

open Text (lower)

namespace Firmware

/-! ## Type definitions -/

/-- A type definition: whether it is a struct or a union, the name it closes with and the texts of
its members. -/
structure Typedef where
  kind : String
  name : String
  members : List String
deriving Repr, DecidableEq

/-- Lines that open a type definition. -/
def opensTypedef (line : String) : Bool :=
  "typedef ".toList.isPrefixOf line.toList

/-- The name on the line that closes a type definition. -/
def closedName (line : String) : String :=
  (between? (closing ++ " ") ";" line.toList).getD ""

/-- The type definitions on some lines. -/
def typedefs : List String → List Typedef
  | [] => []
  | line :: rest =>
      if opensTypedef line then
        { kind := String.ofList ((words line).getD 1 [])
          name := closedName ((rest.dropWhile (!closesAt 0 ·)).headD "")
          members := (rest.takeWhile (!closesAt 0 ·)).map unindented } :: typedefs rest
      else typedefs rest

theorem typedefs_cons {line : String} (h : opensTypedef line = false) (rest : List String) :
    typedefs (line :: rest) = typedefs rest := by
  rw [typedefs, if_neg (by simp [h])]

/-- Lines that define no type. -/
theorem typedefs_append {front : List String} (h : ∀ line ∈ front, opensTypedef line = false)
    (rest : List String) : typedefs (front ++ rest) = typedefs rest := by
  induction front with
  | nil => rfl
  | cons line front ih =>
      rw [List.forall_mem_cons] at h
      rw [List.cons_append, typedefs_cons h.1, ih h.2]

theorem opensTypedef_indent (level : Nat) (text : String) :
    opensTypedef (indent (level + 1) text) = false :=
  isPrefixOf_indent (by decide) _ level text

/-- The definition that a record is written as. -/
def Record.typedef (record : Record) : Typedef :=
  ⟨record.kind.word, record.typeName, record.members.map Member.declaration⟩

/-- A record is read back as its definition. -/
theorem typedefs_record {record : Record}
    (hmembers : ∀ member ∈ record.members, Flush member.declaration) (rest : List String) :
    typedefs (record.lines ++ rest) = record.typedef :: typedefs rest := by
  let body := record.members.map fun member => indent 1 member.declaration
  have hopens : opensTypedef (opening ("typedef " ++ record.kind.word ++ " " ++
      Naming.structTag record.typeName)) = true := by
    simp [opensTypedef, opening]
  have hkind : String.ofList ((words (opening ("typedef " ++ record.kind.word ++ " " ++
      Naming.structTag record.typeName))).getD 1 []) = record.kind.word := by
    have hword : Unbroken record.kind.word := by cases record.kind <;> decide
    have hline : opening ("typedef " ++ record.kind.word ++ " " ++
        Naming.structTag record.typeName) = "typedef" ++ " " ++
          (record.kind.word ++ " " ++ (Naming.structTag record.typeName ++ r" {")) := by
      simp [opening, ← String.toList_inj]
    rw [hline, words_append (by decide), words_append hword]
    simp
  have hbody : ∀ line ∈ body, (!closesAt 0 line) = true :=
    List.forall_mem_map.mpr fun member _ => by rw [closesAt_indent (by decide), Bool.not_false]
  have hclosing : closesAt 0 (closing ++ " " ++ record.typeName ++ ";") = true := by
    have hclosed := closesAt_closing 0 (" " ++ record.typeName ++ ";")
    rwa [indent_zero, ← String.append_assoc, ← String.append_assoc] at hclosed
  have hinner : ∀ line ∈ body ++ [closing ++ " " ++ record.typeName ++ ";", ""],
      opensTypedef line = false := by
    rw [List.forall_mem_append]
    refine ⟨List.forall_mem_map.mpr fun member _ => opensTypedef_indent 0 _, ?_⟩
    simp [opensTypedef, closing, List.isPrefixOf]
  have hlines : record.lines ++ rest = opening ("typedef " ++ record.kind.word ++ " " ++
      Naming.structTag record.typeName) ::
        (body ++ [closing ++ " " ++ record.typeName ++ ";", ""] ++ rest) := by
    simp [Record.lines, body]
  have htexts : body.map unindented = record.members.map Member.declaration := by
    rw [List.map_map]
    exact List.map_congr_left fun member hmember => unindented_indent (hmembers member hmember) 1
  rw [hlines, typedefs, if_pos hopens, typedefs_append hinner, hkind, List.append_assoc,
    List.takeWhile_append_of_pos hbody, List.dropWhile_append_of_pos hbody, List.cons_append,
    List.takeWhile_cons_of_neg (by simp [hclosing]),
    List.dropWhile_cons_of_neg (by simp [hclosing]),
    List.append_nil, List.headD_cons, htexts, closedName, between_append]
  rfl

/-- Records are read back as their definitions. -/
theorem typedefs_records {records : List Record}
    (hmembers : ∀ record ∈ records, ∀ member ∈ record.members, Flush member.declaration)
    (rest : List String) : typedefs (records.flatMap Record.lines ++ rest) =
      records.map Record.typedef ++ typedefs rest := by
  induction records with
  | nil => rfl
  | cons record records ih =>
      rw [List.forall_mem_cons] at hmembers
      rw [List.flatMap_cons, List.append_assoc, typedefs_record hmembers.1, ih hmembers.2]
      rfl

/-! ## Structs of a header -/

namespace MainHeader

/-- The structs that a header declares. -/
def structs (header : MainHeader) : List Record :=
  (if header.nesting then header.nested else []) ++ header.payloads

theorem infix_titled {shown : Bool} {title : String} {records : List Record} {record : Record}
    (h : record ∈ if shown then records else []) :
    record.lines <:+: titled shown title (records.flatMap Record.lines) := by
  cases shown with
  | false => cases h
  | true =>
      exact List.infix_cons (List.infix_of_mem_flatten (List.mem_map_of_mem h))

/-- The text of a header holds the structs it declares. -/
theorem infix_of_mem_structs {header : MainHeader} {record : Record}
    (h : record ∈ header.structs) : record.lines <:+: header.lines := by
  rw [structs, List.mem_append] at h
  unfold lines
  rcases h with hnested | hpayload
  · iterate 6 refine List.IsInfix.trans ?_ (List.prefix_append _ _).isInfix
    exact (infix_titled hnested).trans (List.suffix_append _ _).isInfix
  · have hshown : record ∈ if !header.payloads.isEmpty then header.payloads else [] := by
      cases hpayloads : header.payloads with
      | nil => simp [hpayloads] at hpayload
      | cons first rest => simpa [hpayloads] using hpayload
    iterate 5 refine List.IsInfix.trans ?_ (List.prefix_append _ _).isInfix
    exact (infix_titled hshown).trans (List.suffix_append _ _).isInfix

end MainHeader

/-- The line in front of the prototypes of a main header. -/
def marksPrototypes (line : String) : Bool :=
  line == "// --- Public Function Prototypes ---"

/-- The lines of a main header in front of its prototypes, which may be written by hand. -/
def typeLines (lines : List String) : List String :=
  lines.takeWhile (!marksPrototypes ·)

/-- Lines that define no type and do not mark the prototypes. -/
def Plain (line : String) : Prop :=
  opensTypedef line = false ∧ marksPrototypes line = false

instance (line : String) : Decidable (Plain line) :=
  inferInstanceAs (Decidable (opensTypedef line = false ∧ marksPrototypes line = false))

/-- A line is plain if it starts otherwise than the two kinds of lines that are not. -/
theorem plain_of_prefix (start : List Char) {line : String} (hline : start <+: line.toList)
    (htypedef : (start.isPrefixOf "typedef ".toList || "typedef ".toList.isPrefixOf start) = false)
    (hmark : start.isPrefixOf "// --- Public Function Prototypes ---".toList = false) :
    Plain line := by
  rw [Bool.or_eq_false_iff] at htypedef
  constructor
  · rw [opensTypedef, Bool.eq_false_iff, ne_eq, List.isPrefixOf_iff_prefix]
    intro hopens
    rcases List.prefix_or_prefix_of_prefix hline hopens with h | h
    · rw [List.isPrefixOf_iff_prefix.mpr h] at htypedef
      cases htypedef.1
    · rw [List.isPrefixOf_iff_prefix.mpr h] at htypedef
      cases htypedef.2
  · rw [marksPrototypes, beq_eq_false_iff_ne]
    rintro rfl
    rw [List.isPrefixOf_iff_prefix.mpr hline] at hmark
    cases hmark

theorem plain_indent (level : Nat) (text : String) : Plain (indent (level + 1) text) := by
  refine plain_of_prefix [' '] ?_ (by decide) (by decide)
  rw [toList_indent, Nat.mul_succ, Nat.add_comm, ← List.replicate_append_replicate]
  exact (List.prefix_append [' '] _).trans (List.prefix_append _ _)

theorem plain_append {start : String} (rest : String)
    (htypedef : (start.toList.isPrefixOf "typedef ".toList ||
      "typedef ".toList.isPrefixOf start.toList) = false)
    (hmark : start.toList.isPrefixOf "// --- Public Function Prototypes ---".toList = false) :
    Plain (start ++ rest) := by
  have hprefix : start.toList <+: (start ++ rest).toList := by
    rw [String.toList_append]
    exact List.prefix_append _ _
  exact plain_of_prefix start.toList hprefix htypedef hmark

/-- The lines in front of the structs are plain. -/
theorem plain_names (names : ScopeNames) : ∀ line ∈ names.lines, Plain line := by
  have hhead : Plain (opening ("enum " ++ names.tag)) := by
    rw [opening, String.append_assoc]
    exact plain_append _ (by decide) (by decide)
  have hordinals : ∀ line ∈ names.ordinals.map ScopeNames.ordinalLine, Plain line :=
    List.forall_mem_map.mpr fun ordinal _ => plain_indent 0 _
  have hflags : ∀ line ∈ names.flags.map PresenceFlag.line, Plain line := by
    refine List.forall_mem_map.mpr fun flag _ => ?_
    rw [PresenceFlag.line, String.append_assoc, String.append_assoc]
    exact plain_append _ (by decide) (by decide)
  have hblank : ∀ line ∈ [closing ++ ";", ""], Plain line := by decide
  rw [ScopeNames.lines]
  split <;> simp only [List.forall_mem_append, List.forall_mem_singleton]
  · exact ⟨⟨⟨hhead, hordinals⟩, hblank⟩, List.forall_mem_nil _⟩
  · exact ⟨⟨⟨hhead, hordinals⟩, hblank⟩, hflags, by decide⟩

theorem plain_linesBefore (header : MainHeader) : ∀ line ∈ linesBefore header, Plain line := by
  rw [linesBefore, banner]
  simp only [List.forall_mem_append, List.forall_mem_cons]
  refine ⟨⟨by decide, plain_append _ (by decide) (by decide),
    plain_append _ (by decide) (by decide), by decide, by decide, by decide, by decide,
    List.forall_mem_nil _⟩,
    plain_append _ (by decide) (by decide), plain_append _ (by decide) (by decide), by decide,
    by decide, by decide, by decide, by decide, by decide, by decide, by decide, by decide,
    by decide, List.forall_mem_nil _⟩

/-- The lines of a main header in front of its structs. -/
def linesBeforeStructs (header : MainHeader) : List String :=
  linesBefore header ++
    [opening ("enum _" ++ lower header.protocol ++ "_cmd_names")] ++
    header.commands.map (fun name => indent 1 (name ++ ",")) ++ [closing ++ ";", ""] ++
    MainHeader.titled (!header.scopes.isEmpty) "// Attributes enums"
      (header.scopes.flatMap ScopeNames.lines)

theorem plain_linesBeforeStructs (header : MainHeader) :
    ∀ line ∈ linesBeforeStructs header, Plain line := by
  have hhead : Plain (opening ("enum _" ++ lower header.protocol ++ "_cmd_names")) := by
    rw [opening, String.append_assoc, String.append_assoc]
    exact plain_append _ (by decide) (by decide)
  have hcommands : ∀ line ∈ header.commands.map fun name => indent 1 (name ++ ","), Plain line :=
    List.forall_mem_map.mpr fun name _ => plain_indent 0 _
  have hblank : ∀ line ∈ [closing ++ ";", ""], Plain line := by decide
  have hscopes : ∀ line ∈ MainHeader.titled (!header.scopes.isEmpty) "// Attributes enums"
      (header.scopes.flatMap ScopeNames.lines), Plain line := by
    rw [MainHeader.titled]
    split
    · rw [List.forall_mem_cons, List.forall_mem_flatMap]
      exact ⟨by decide, fun names _ => plain_names names⟩
    · exact List.forall_mem_nil _
  simp only [linesBeforeStructs, List.forall_mem_append, List.forall_mem_singleton]
  exact ⟨⟨⟨⟨plain_linesBefore header, hhead⟩, hcommands⟩, hblank⟩, hscopes⟩

/-- The lines of records do not mark the prototypes. -/
theorem marksPrototypes_record (record : Record) :
    ∀ line ∈ record.lines, marksPrototypes line = false := by
  have hne {start : String} (rest : String)
      (h : start.toList.isPrefixOf "// --- Public Function Prototypes ---".toList = false) :
      marksPrototypes (start ++ rest) = false := by
    rw [marksPrototypes, beq_eq_false_iff_ne]
    intro heq
    have hprefix : start.toList <+: "// --- Public Function Prototypes ---".toList := by
      rw [← heq, String.toList_append]
      exact List.prefix_append _ _
    rw [List.isPrefixOf_iff_prefix.mpr hprefix] at h
    cases h
  rw [Record.lines]
  simp only [List.forall_mem_append, List.forall_mem_cons, List.forall_mem_map]
  refine ⟨⟨⟨?_, List.forall_mem_nil _⟩, fun member _ => (plain_indent 0 _).2⟩, ?_, by decide,
    List.forall_mem_nil _⟩
  · rw [opening, String.append_assoc, String.append_assoc, String.append_assoc]
    exact hne _ (by decide)
  · rw [String.append_assoc, String.append_assoc]
    exact hne _ (by decide)

/-- The sections of structs of a main header. -/
def structLines (header : MainHeader) : List String :=
  MainHeader.titled header.nesting "// Attribute with sub-attributes structures"
      (header.nested.flatMap Record.lines) ++
    MainHeader.titled (!header.payloads.isEmpty) "// Command data structures"
      (header.payloads.flatMap Record.lines)

theorem typedefs_titled {title : String} (htitle : opensTypedef title = false) {shown : Bool}
    {records : List Record}
    (hmembers : ∀ record ∈ if shown then records else [], ∀ member ∈ record.members,
      Flush member.declaration) (rest : List String) :
    typedefs (MainHeader.titled shown title (records.flatMap Record.lines) ++ rest) =
      (if shown then records else []).map Record.typedef ++ typedefs rest := by
  cases shown with
  | false => rfl
  | true =>
      rw [MainHeader.titled, if_pos rfl, List.cons_append, typedefs_cons htitle]
      exact typedefs_records hmembers rest

/-- A main header defines its structs and its union, in their order. -/
theorem typedefs_mainHeader {header : MainHeader}
    (hmembers : ∀ record ∈ header.structs ++ [header.union], ∀ member ∈ record.members,
      Flush member.declaration) :
    typedefs (typeLines header.lines) =
      (header.structs ++ [header.union]).map Record.typedef := by
  have hpayloads : (if !header.payloads.isEmpty then header.payloads else []) =
      header.payloads := by
    cases header.payloads <;> rfl
  have hlines : header.lines = linesBeforeStructs header ++ structLines header ++
      ["// Command payload union"] ++ header.union.lines ++
        "// --- Public Function Prototypes ---" :: ("" ::
          header.publicFunctions.flatMap MainHeader.declarationLines ++
            ["#endif // " ++ includeGuard (Naming.mainHeaderFile header.protocol)]) := by
    rw [lines_mainHeader, linesBehind, linesBeforeStructs, structLines]
    simp
  have htitled {title : String} (htitle : marksPrototypes title = false) (shown : Bool)
      (records : List Record) : ∀ line ∈ MainHeader.titled shown title
        (records.flatMap Record.lines), marksPrototypes line = false := by
    rw [MainHeader.titled]
    split
    · rw [List.forall_mem_cons, List.forall_mem_flatMap]
      exact ⟨htitle, fun record _ => marksPrototypes_record record⟩
    · exact List.forall_mem_nil _
  have hunmarked : ∀ line ∈ linesBeforeStructs header ++ structLines header ++
      ["// Command payload union"] ++ header.union.lines, (!marksPrototypes line) = true := by
    simp only [Bool.not_eq_true', structLines, List.forall_mem_append, List.forall_mem_singleton]
    exact ⟨⟨⟨fun line hline => (plain_linesBeforeStructs header line hline).2,
      htitled (by decide) _ _, htitled (by decide) _ _⟩, by decide⟩,
      marksPrototypes_record header.union⟩
  have htypes : typeLines header.lines = linesBeforeStructs header ++ (structLines header ++
      ("// Command payload union" :: (header.union.lines ++ []))) := by
    rw [typeLines, hlines, List.takeWhile_append_of_pos hunmarked,
      List.takeWhile_cons_of_neg (by decide)]
    simp
  rw [List.forall_mem_append, MainHeader.structs, List.forall_mem_append,
    List.forall_mem_singleton] at hmembers
  obtain ⟨⟨hnested, hcommands⟩, hunion⟩ := hmembers
  rw [htypes, typedefs_append fun line hline => (plain_linesBeforeStructs header line hline).1,
    structLines, List.append_assoc, typedefs_titled (by decide) hnested,
    typedefs_titled (by decide) (by rwa [hpayloads]), hpayloads, typedefs_cons (by decide),
    typedefs_record hunion, MainHeader.structs]
  simp [typedefs]

/-! ## Declarations -/

/-- What a text declares: the name of a type, whether a star follows it, a name, and what is
behind the name. -/
structure Declaration where
  base : String
  pointer : Bool
  name : String
  extent : String
deriving Repr, DecidableEq

/-- Characters of names. -/
def isWordChar (c : Char) : Bool :=
  c.isAlphanum || c == '_'

/-- What a text declares, by its first two words. -/
def declaration? (text : String) : Option Declaration :=
  match words text with
  | base :: declarator :: _ =>
      let named := declarator.dropWhile (· == '*')
      some
        { base := String.ofList base
          pointer := declarator.head? == some '*'
          name := String.ofList (named.takeWhile isWordChar)
          extent := String.ofList ((named.dropWhile isWordChar).takeWhile (· != ';')) }
  | _ => none

/-- Where the first character is none of those looked for, nothing is taken. -/
private theorem takeWhile_of_head {p : Char → Bool} {text : List Char}
    (h : ∀ c ∈ text.head?, p c = false) : text.takeWhile p = [] ∧ text.dropWhile p = text := by
  cases text with
  | nil => exact ⟨rfl, rfl⟩
  | cons c rest =>
      have hc : ¬p c = true := by simp [h c rfl]
      exact ⟨List.takeWhile_cons_of_neg hc, List.dropWhile_cons_of_neg hc⟩

/-- A declarator is read part by part. -/
theorem declaration_of_words {text base name extent : String} {star behind : List Char}
    {more : List (List Char)}
    (hwords : words text = base.toList :: (star ++ (name.toList ++ behind)) :: more)
    (hstar : star = [] ∨ star = ['*']) (hname : IsWord name)
    (hbehind : ∀ c ∈ behind.head?, isWordChar c = false ∧ c ≠ '*')
    (hextent : behind.takeWhile (· != ';') = extent.toList) :
    declaration? text = some ⟨base, star == ['*'], name, extent⟩ := by
  have hchars : ∀ c ∈ name.toList, isWordChar c = true := fun c hc =>
    isNameRest_iff.mpr (hname c hc)
  -- behind the star no other follows
  have hhead : ∀ c ∈ (name.toList ++ behind).head?, (c == '*') = false := by
    intro c hc
    rw [beq_eq_false_iff_ne]
    cases hlist : name.toList with
    | nil =>
        rw [hlist, List.nil_append] at hc
        exact (hbehind c hc).2
    | cons d rest =>
        rw [hlist] at hc
        obtain rfl : d = c := by simpa using hc
        rintro rfl
        exact absurd (hname '*' (hlist ▸ List.mem_cons_self)) (by decide)
  obtain ⟨htaken, hleft⟩ := takeWhile_of_head (p := isWordChar) fun c hc => (hbehind c hc).1
  have hnamed : (star ++ (name.toList ++ behind)).dropWhile (· == '*') = name.toList ++ behind := by
    rcases hstar with rfl | rfl
    · exact (takeWhile_of_head hhead).2
    · rw [List.singleton_append, List.dropWhile_cons_of_pos (by decide)]
      exact (takeWhile_of_head hhead).2
  have hpointer : ((star ++ (name.toList ++ behind)).head? == some '*') = (star == ['*']) := by
    rcases hstar with rfl | rfl
    · rw [List.nil_append, beq_eq_false_iff_ne.mpr fun heq => ?_]
      · rfl
      · exact absurd (hhead '*' heq) (by decide)
    · rfl
  rw [declaration?, hwords]
  simp only [hnamed, hpointer, List.takeWhile_append_of_pos hchars,
    List.dropWhile_append_of_pos hchars, htaken, hleft, hextent, List.append_nil,
    String.ofList_toList]

/-! ## Members -/

namespace Member

/-- What a member is declared as. -/
def declared (member : Member) : Declaration :=
  match member.type with
  | .number scalar => ⟨scalar.cName, false, member.name, ""⟩
  | .bytePointer => ⟨"uint8_t", true, member.name, ""⟩
  | .textPointer => ⟨"char", true, member.name, ""⟩
  | .record typeName => ⟨typeName, false, member.name, ""⟩
  | .presence .u8 => ⟨"uint8_t", false, presenceMember, ""⟩
  | .presence .u16 => ⟨"uint16_t", false, presenceMember, ""⟩
  | .presence .u32 => ⟨"uint32_t", false, presenceMember, ""⟩
  | .presence (.bytes n) => ⟨"uint8_t", false, presenceMember, "[" ++ toString n ++ "]"⟩

/-- Members that are declared with words. -/
structure Spelled (member : Member) : Prop where
  name : IsWord member.name
  record : ∀ typeName, member.type = .record typeName → IsWord typeName ∧ typeName.toList ≠ []
  presence : ∀ width, member.type = .presence width → member.name = presenceMember

/-- A member is declared under its name. -/
theorem name_declared {member : Member} (h : member.Spelled) :
    member.declared.name = member.name := by
  obtain ⟨type, name⟩ := member
  cases type with
  | presence width =>
      have hname := h.presence width rfl
      cases width <;> exact hname.symm
  | _ => rfl

/-- A type and a declarator up to a semicolon are read back, from a text that is not indented. -/
private theorem read_of_eq (base star : String) {text name extent : String} (hbase : Unbroken base)
    (hstar : star = "" ∨ star = "*") (hname : IsWord name)
    (hextent : extent = "" ∨ ∃ n : Nat, extent = "[" ++ toString n ++ "]")
    (htext : text = base ++ " " ++ (star ++ (name ++ (extent ++ ";")))) :
    declaration? text = some ⟨base, star == "*", name, extent⟩ ∧ Flush text := by
  have hplain : Avoids [' ', ';'] extent := by
    rcases hextent with rfl | ⟨n, rfl⟩
    · decide
    · rw [avoids_append, avoids_append]
      exact ⟨⟨by decide, (isWord_toString n).avoids (by decide)⟩, by decide⟩
  have hdeclarator : Unbroken (star ++ (name ++ (extent ++ ";"))) := by
    refine ⟨by simp, ?_⟩
    simp only [String.toList_append, List.mem_append, not_or]
    refine ⟨?_, hname.blank_not_mem, hplain ' ' (by decide), by decide⟩
    rcases hstar with rfl | rfl <;> decide
  have hwords : words text =
      [base.toList, star.toList ++ (name.toList ++ (extent.toList ++ [';']))] := by
    rw [htext, words_append hbase, words_unbroken hdeclarator, String.toList_append,
      String.toList_append, String.toList_append]
    rfl
  have hpointer : (star.toList == ['*']) = (star == "*") := by
    rcases hstar with rfl | rfl <;> decide
  refine ⟨?_, htext ▸ ((flush_of_unbroken hbase).append _).append _⟩
  rw [declaration_of_words hwords ?star hname ?behind ?extent, hpointer]
  case star => rcases hstar with rfl | rfl <;> decide
  case behind =>
    intro c hc
    rcases hextent with rfl | ⟨n, rfl⟩
    · obtain rfl : ';' = c := by simpa using hc
      decide
    · obtain rfl : '[' = c := by simpa using hc
      decide
  case extent =>
    have htaken : ∀ c ∈ extent.toList, (c != ';') = true := fun c hc =>
      bne_iff_ne.mpr fun heq => hplain ';' (by decide) (heq ▸ hc)
    rw [List.takeWhile_append_of_pos htaken, List.takeWhile_cons_of_neg (by decide),
      List.append_nil]

/-- The declaration of a member is read back, and it is not indented. -/
theorem read_declaration {member : Member} (h : member.Spelled) :
    declaration? member.declaration = some member.declared ∧ Flush member.declaration := by
  obtain ⟨type, name⟩ := member
  have hname := h.name
  have hmember : IsWord presenceMember := .fixed rfl
  cases type with
  | number scalar =>
      have hscalar : Unbroken scalar.cName := by cases scalar <;> decide
      exact read_of_eq scalar.cName "" hscalar (.inl rfl) hname (.inl rfl)
        (by simp [declaration, ← String.toList_inj])
  | bytePointer =>
      exact read_of_eq "uint8_t" "*" (by decide) (.inr rfl) hname (.inl rfl)
        (by simp [declaration, ← String.toList_inj])
  | textPointer =>
      exact read_of_eq "char" "*" (by decide) (.inr rfl) hname (.inl rfl)
        (by simp [declaration, ← String.toList_inj])
  | record typeName =>
      have htype := h.record typeName rfl
      exact read_of_eq typeName "" (htype.1.unbroken htype.2) (.inl rfl) hname (.inl rfl)
        (by simp [declaration, ← String.toList_inj])
  | presence width =>
      cases width with
      | bytes n =>
          exact read_of_eq "uint8_t" "" (by decide) (.inl rfl) hmember (.inr ⟨n, rfl⟩)
            (by simp [declaration, PresenceWidth.declaration, ← String.toList_inj])
      | u8 => exact read_of_eq "uint8_t" "" (by decide) (.inl rfl) hmember (.inl rfl) rfl
      | u16 => exact read_of_eq "uint16_t" "" (by decide) (.inl rfl) hmember (.inl rfl) rfl
      | u32 => exact read_of_eq "uint32_t" "" (by decide) (.inl rfl) hmember (.inl rfl) rfl

end Member

/-! ## Structs of a protocol -/

end Firmware

/-- What the type of a group is named after: its command, or the last two names that lead to
it. -/
def Group.typeStem (group : Group) : String :=
  match group.ancestors.reverse with
  | name :: parent :: _ => lower parent ++ "_att_" ++ lower name
  | [name] => lower name
  | [] => ""

/-- The type of a group. -/
def Group.typeName (protocol : String) (group : Group) : String :=
  lower protocol ++ "_" ++ group.typeStem ++ "_att_payload_t"

/-- The struct of a group. -/
def Group.record (protocol : String) (group : Group) : Firmware.Record :=
  .ofGroup protocol (group.typeName protocol) group.parent group.members

/-- The structs of all groups, in the order in which items are defined, and the union. -/
def Protocol.records (protocol : Protocol) : List Firmware.Record :=
  (definedGroups protocol).map (Group.record protocol.name) ++
    [.ofCarriers protocol.name protocol.carriers]

/-- Their definitions. -/
def Protocol.typedefs (protocol : Protocol) : List Firmware.Typedef :=
  protocol.records.map Firmware.Record.typedef

namespace Firmware

theorem typeStem_below {group : Group} (h : group.ancestors ≠ []) (att : Attribute) :
    (group.below att).typeStem = lower group.parent ++ "_att_" ++ lower att.name := by
  obtain ⟨above, habove⟩ := Group.reverse_ancestors h
  rw [Group.typeStem, Group.below]
  simp [habove]

/-- The member that leads to a group has its type. -/
theorem typeName_below (protocol : String) {group : Group} (h : group.ancestors ≠ [])
    (att : Attribute) : (group.below att).typeName protocol =
      Naming.nestedPayload protocol group.parent att.name := by
  rw [Group.typeName, typeStem_below h, Naming.nestedPayload]
  simp only [String.append_assoc]

theorem record_group (protocol : String) (cmd : Command) :
    cmd.group.record protocol = Record.ofCommand protocol cmd :=
  rfl

theorem record_below (protocol : String) {p : Position} (h : p.group.ancestors ≠ []) :
    p.below.record protocol = Record.ofEntry protocol p.entry := by
  rw [Group.record, Position.parent_below, Position.below, typeName_below protocol h]
  rfl

variable {protocol : Protocol} {code : Option Recovery.RecoveredCode}

/-- The structs of a header: one for every group, in the order in which items are defined. -/
theorem structs_build (hwell : WellFormed protocol) :
    (MainHeader.build (Prepared.ofProtocol protocol) code).structs =
      (definedGroups protocol).map (Group.record protocol.name) := by
  let header := MainHeader.build (Prepared.ofProtocol protocol) code
  have hnested : (if header.nesting then header.nested else []) = header.nested := by
    split
    next => rfl
    next hnesting =>
      -- without nesting there is no complex attribute either
      have hnone : (Prepared.ofProtocol protocol).complexChildrenFirst = [] := if_neg hnesting
      exact (congrArg (List.map _) hnone).symm
  rw [MainHeader.structs, hnested]
  exact map_entries_eq hwell (fun p hp => (record_below protocol.name hp).symm) fun cmd => rfl

theorem record_mem_records {group : Group} (h : group ∈ protocol.groups) :
    group.record protocol.name ∈ protocol.records :=
  List.mem_append_left _ (List.mem_map_of_mem (mem_definedGroups.mpr h))

theorem union_mem_records (protocol : Protocol) :
    Record.ofCarriers protocol.name protocol.carriers ∈ protocol.records :=
  List.mem_append_right _ (List.mem_singleton_self _)

theorem record_mem_structs (hwell : WellFormed protocol) {group : Group}
    (h : group ∈ protocol.groups) : group.record protocol.name ∈
      (MainHeader.build (Prepared.ofProtocol protocol) code).structs := by
  rw [structs_build hwell]
  exact List.mem_map_of_mem (mem_definedGroups.mpr h)

/-- The struct of a command is one of them. -/
theorem command_mem_structs (hwell : WellFormed protocol) {cmd : Command}
    (hcmd : cmd ∈ protocol.carriers) : Record.ofCommand protocol.name cmd ∈
      (MainHeader.build (Prepared.ofProtocol protocol) code).structs := by
  rw [← record_group]
  exact record_mem_structs hwell (group_mem_groups hcmd)

/-- So is that of a complex attribute. -/
theorem entry_mem_structs (hwell : WellFormed protocol) {p : Position}
    (hp : p ∈ protocol.positions) (hcomplex : p.node.isComplex = true) :
    Record.ofEntry protocol.name p.entry ∈
      (MainHeader.build (Prepared.ofProtocol protocol) code).structs := by
  have hgroup := (group_of_mem_positions hwell.children hp).1
  rw [← record_below protocol.name (named_of_mem_groups hwell hgroup).ancestors_ne_nil]
  exact record_mem_structs hwell (below_mem_groups hp hcomplex)

theorem isWord_nestedPayload {protocol parent name : String} (hprotocol : IsName protocol)
    (hparent : IsName parent) (hname : IsName name) :
    IsWord (Naming.nestedPayload protocol parent name) :=
  (((((hprotocol.isWord.lower.append (.fixed rfl)).append hparent.isWord.lower).append
    (.fixed rfl)).append hname.isWord.lower).append (.fixed rfl))

theorem isWord_commandPayload {protocol name : String} (hprotocol : IsName protocol)
    (hname : IsName name) : IsWord (Naming.commandPayload protocol name) :=
  ((hprotocol.isWord.lower.append (.fixed rfl)).append hname.isWord.lower).append (.fixed rfl)

/-- A member that leads to a group. -/
theorem spelled_groupMember {typeName name : String} (htype : IsWord typeName)
    (hne : typeName.toList ≠ []) (hname : IsName name) :
    Member.Spelled ⟨.record typeName, Naming.groupMember name⟩ where
  name := hname.isWord.lower.append (.fixed rfl)
  record := by
    rintro _ ⟨⟩
    exact ⟨htype, hne⟩
  presence := by
    rintro _ ⟨⟩

/-- The members of an attribute are declared with words. -/
theorem spelled_membersOf {protocol parent : String} {att : Attribute} (hprotocol : IsName protocol)
    (hparent : IsName parent) (hname : IsName att.name) :
    ∀ member ∈ membersOf protocol parent att, member.Spelled := by
  have hvalue {type : MemberType} {name : String} (hword : IsWord name)
      (hrecord : ∀ typeName, type ≠ .record typeName)
      (hpresence : ∀ width, type ≠ .presence width) : Member.Spelled ⟨type, name⟩ :=
    ⟨hword, fun _ h => absurd h (hrecord _), fun _ h => absurd h (hpresence _)⟩
  have hnumber := isWord_numberMember hname
  have hpointer := isWord_pointerMember hname
  have hsize := isWord_sizeMember hname
  rw [membersOf]
  split
  next storage _ =>
    cases storage with
    | scalar scalar => exact List.forall_mem_singleton.mpr (hvalue hnumber (by simp) (by simp))
    | bytes =>
        exact List.forall_mem_cons.mpr ⟨hvalue hpointer (by simp) (by simp),
          List.forall_mem_singleton.mpr (hvalue hsize (by simp) (by simp))⟩
    | text => exact List.forall_mem_singleton.mpr (hvalue hpointer (by simp) (by simp))
    | nested =>
        exact List.forall_mem_singleton.mpr (spelled_groupMember
          (isWord_nestedPayload hprotocol hparent hname) (by simp [Naming.nestedPayload]) hname)
  next => exact List.forall_mem_nil _

/-- The members of the structs and of the union are declared with words. -/
theorem spelled_members (hwell : WellFormed protocol) :
    ∀ record ∈ protocol.records, ∀ member ∈ record.members, member.Spelled := by
  rw [Protocol.records, List.forall_mem_append, List.forall_mem_map, List.forall_mem_singleton]
  constructor
  · intro group hgroup member hmember
    have hnamed := named_of_mem_groups hwell (mem_definedGroups.mp hgroup)
    rw [Group.record, Record.ofGroup, List.mem_append] at hmember
    rcases hmember with hpresence | hmember
    · split at hpresence
      · obtain rfl := List.mem_singleton.mp hpresence
        exact ⟨.fixed rfl, nofun, fun _ _ => rfl⟩
      · cases hpresence
    · obtain ⟨att, hatt, hmember⟩ := List.mem_flatMap.mp hmember
      exact spelled_membersOf hwell.protocol_name hnamed.parent (hnamed.members att hatt) member
        hmember
  · intro member hmember
    rw [Record.ofCarriers] at hmember
    split at hmember
    · obtain rfl := List.mem_singleton.mp hmember
      exact ⟨.fixed rfl, nofun, nofun⟩
    · obtain ⟨cmd, hcmd, rfl⟩ := List.mem_map.mp hmember
      have hname := hwell.command_names cmd (List.mem_of_mem_filter hcmd)
      exact spelled_groupMember (isWord_commandPayload hwell.protocol_name hname)
        (by simp [Naming.commandPayload]) hname

/-- The type definitions of a main header: the structs of all groups and the union. -/
theorem typedefs_build (hwell : WellFormed protocol) :
    typedefs (typeLines (MainHeader.build (Prepared.ofProtocol protocol) code).lines) =
      protocol.typedefs := by
  have hspelled := spelled_members hwell
  rw [typedefs_mainHeader, structs_build hwell]
  · rfl
  · rw [structs_build hwell]
    exact fun record hrecord member hmember =>
      (Member.read_declaration (hspelled record hrecord member hmember)).2

end Firmware
end CommandSet
