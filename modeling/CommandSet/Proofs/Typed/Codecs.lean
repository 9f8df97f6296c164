import CommandSet.Proofs.Text.Blocks
import CommandSet.Proofs.Text.Tokens
import CommandSet.Proofs.Typed.Groups

/-!
# Encoding and decoding functions in Rust

The functions that encode and decode a payload struct are read off their lines: an encoder as
the elements it pushes, a decoder as the elements it takes, each with the field, the variant of
the element and the expression between the two.

Main definitions:

- {lit}`Packing`, {lit}`Unpacking`: the expressions of the two sides.
- {lit}`Push`, {lit}`Take`: what is pushed, and what is taken.
- {lit}`EncodeFunction`, {lit}`DecodeFunction`: the two functions.

Main results:

- Theorems {lit}`encodeFunction_lines`, {lit}`decodeFunction_lines`: the functions are read off
  their lines.
-/

namespace CommandSet
namespace Typed

/-! ## Expressions -/

/-- How an element is made from a field. -/
inductive Packing where
  /-- One byte. -/
  | byte
  /-- A number of variable length. -/
  | number
  /-- Little-endian bytes. -/
  | littleEndian
  | bytes
  /-- The bytes of a text with a zero behind them. -/
  | text
  /-- What a function makes of a struct. -/
  | scope (function : String)
deriving Repr, DecidableEq

/-- How a field is made from an element. -/
inductive Unpacking where
  /-- The first byte. -/
  | byte
  /-- A number of variable length that has to fit a type. -/
  | narrowed (type : String)
  /-- A number of variable length. -/
  | number
  /-- A number of a type from so many little-endian bytes. -/
  | littleEndian (type : String) (length : Nat)
  | bytes
  /-- The bytes before the first zero. -/
  | text
  /-- What a function makes of the elements below. -/
  | scope (function : String)
deriving Repr, DecidableEq

/-- The first form that an expression has. -/
def firstForm? {α : Type} (forms : List (List Token × (List (List Char) → Option α)))
    (expression : List Token) : Option α :=
  forms.findSome? fun form => (read? form.1 expression).bind form.2

/-- The expressions on the field of a payload, with the field. -/
def fieldPackings : List (List Token × (List (List Char) → Option (Packing × List Char))) :=
  [(tokens "@(&payload.@)",
      fun | [function, field] => some (.scope (String.ofList function), field) | _ => none),
    (tokens "vec![payload.@]", fun | [field] => some (.byte, field) | _ => none),
    (tokens "vle_encode(u64::from(payload.@))", fun | [field] => some (.number, field) | _ => none),
    (tokens "payload.@.to_le_bytes().to_vec()",
      fun | [field] => some (.littleEndian, field) | _ => none),
    (tokens "payload.@.clone()", fun | [field] => some (.bytes, field) | _ => none),
    (tokens "payload.@.as_bytes_with_nul().to_vec()",
      fun | [field] => some (.text, field) | _ => none)]

/-- The expressions on the value of an optional field. -/
def valuePackings : List (List Token × (List (List Char) → Option Packing)) :=
  [(tokens "@(value)", fun | [function] => some (.scope (String.ofList function)) | _ => none),
    (tokens "vec![*value]", fun _ => some .byte),
    (tokens "vle_encode(u64::from(*value))", fun _ => some .number),
    (tokens "value.to_le_bytes().to_vec()", fun _ => some .littleEndian),
    (tokens "value.clone()", fun _ => some .bytes),
    (tokens "value.as_bytes_with_nul().to_vec()", fun _ => some .text)]

/-- The expressions on what is bound to the contents of an element, with its name. -/
def unpackings : List (List Token × (List (List Char) → Option (Unpacking × List Char))) :=
  [(tokens "@(@)?",
      fun | [function, binding] => some (.scope (String.ofList function), binding) | _ => none),
    (tokens "*@.first()?", fun | [binding] => some (.byte, binding) | _ => none),
    (tokens "@::try_from(vle_decode(@)).ok()?",
      fun | [type, binding] => some (.narrowed (String.ofList type), binding) | _ => none),
    (tokens "@::from_le_bytes(@.get(..@)?.try_into().ok()?)",
      fun
      | [type, binding, length] =>
          some (.littleEndian (String.ofList type) (Schema.digitsValue 10 length), binding)
      | _ => none),
    (tokens "@.clone()", fun | [binding] => some (.bytes, binding) | _ => none),
    (tokens "vle_decode(@)", fun | [binding] => some (.number, binding) | _ => none),
    (tokens "CString::new(@.iter().copied().take_while(|&b| b != 0).collect::<Vec<u8>>()).ok()?",
      fun | [binding] => some (.text, binding) | _ => none)]

/-! ## Expressions of encoders -/

namespace EncodeExpr

/-- What an expression says. -/
def packing : EncodeExpr → Packing
  | byte => .byte
  | variableLength => .number
  | littleEndian _ => .littleEndian
  | bytes => .bytes
  | text => .text
  | nested stem => .scope (Encoder.name stem)

/-- The variant of the element that an encoder makes. -/
def variant : EncodeExpr → String
  | nested _ => "SubAttArray"
  | _ => "Data"

/-- The expression within the element that an encoder makes. -/
def inner (value : String) (borrowed : Bool) (expr : EncodeExpr) : String :=
  let copied := if borrowed then "*" ++ value else value
  let reference := if borrowed then value else "&" ++ value
  match expr with
  | byte => "vec![" ++ copied ++ "]"
  | variableLength => "vle_encode(u64::from(" ++ copied ++ "))"
  | littleEndian _ => value ++ ".to_le_bytes().to_vec()"
  | bytes => value ++ ".clone()"
  | text => value ++ ".as_bytes_with_nul().to_vec()"
  | nested stem => Encoder.name stem ++ "(" ++ reference ++ ")"

/-- The functions that an expression calls by a name of the protocol. -/
def functions : EncodeExpr → List (List Char)
  | nested stem => [(Encoder.name stem).toList]
  | _ => []

/-- The form of an expression on a field. -/
def fieldForm : EncodeExpr → String
  | byte => "vec![payload.@]"
  | variableLength => "vle_encode(u64::from(payload.@))"
  | littleEndian _ => "payload.@.to_le_bytes().to_vec()"
  | bytes => "payload.@.clone()"
  | text => "payload.@.as_bytes_with_nul().to_vec()"
  | nested _ => "@(&payload.@)"

/-- The form of an expression on the value of an optional field. -/
def valueForm : EncodeExpr → String
  | byte => "vec![*value]"
  | variableLength => "vle_encode(u64::from(*value))"
  | littleEndian _ => "value.to_le_bytes().to_vec()"
  | bytes => "value.clone()"
  | text => "value.as_bytes_with_nul().to_vec()"
  | nested _ => "@(value)"

theorem render_eq (value : String) (borrowed : Bool) (expr : EncodeExpr) :
    expr.render value borrowed =
      "LcsfValidAttPayload::" ++ expr.variant ++ "(" ++ (expr.inner value borrowed ++ ")") := by
  cases expr <;> dsimp only [render, variant, inner, Encoder.name] <;>
    simp only [← String.toList_inj, String.toList_append, List.append_assoc] <;>
    (repeat rw [String.toList_ofList]) <;> rfl

theorem isLexeme_variant (expr : EncodeExpr) : IsLexeme expr.variant.toList := by
  cases expr <;> exact IsLexeme.fixed rfl

variable {field : String} {expr : EncodeExpr}

theorem firstForm_field (field : List Char) (expr : EncodeExpr) :
    firstForm? fieldPackings (fillTokens (tokens expr.fieldForm) (expr.functions ++ [field])) =
      some (expr.packing, field) := by
  cases expr with
  | nested stem =>
      dsimp only [fieldForm, functions, packing]
      unfold fieldPackings
      repeat rw [tokens_ofList]
      exact congrArg (fun name => some (Packing.scope name, field)) String.ofList_toList
  | _ =>
      dsimp only [fieldForm, functions, packing]
      unfold fieldPackings
      repeat rw [tokens_ofList]
      rfl

theorem firstForm_value (expr : EncodeExpr) :
    firstForm? valuePackings (fillTokens (tokens expr.valueForm) expr.functions) =
      some expr.packing := by
  cases expr with
  | nested stem =>
      dsimp only [valueForm, functions, packing]
      unfold valuePackings
      repeat rw [tokens_ofList]
      exact congrArg (fun name => some (Packing.scope name)) String.ofList_toList
  | _ =>
      dsimp only [valueForm, functions, packing]
      unfold valuePackings
      repeat rw [tokens_ofList]
      rfl

theorem lexes_field (hfield : IsLexeme field.toList)
    (hexpr : ∀ function ∈ expr.functions, IsLexeme function) :
    Lexes (expr.inner ("payload." ++ field) false)
      (fillTokens (tokens expr.fieldForm) (expr.functions ++ [field.toList])) := by
  have hwords : ∀ word ∈ expr.functions ++ [field.toList], IsLexeme word :=
    List.forall_mem_append.mpr ⟨hexpr, List.forall_mem_singleton.mpr hfield⟩
  cases expr <;> dsimp only [inner, fieldForm] <;>
    refine lexes_of_fill ?_ (by decide) (by decide) hwords <;>
    simp only [Bool.false_eq_true, if_false, String.toList_append, List.append_assoc] <;>
    (repeat rw [String.toList_ofList]) <;> rfl

theorem lexes_value (hexpr : ∀ function ∈ expr.functions, IsLexeme function) :
    Lexes (expr.inner "value" true) (fillTokens (tokens expr.valueForm) expr.functions) := by
  cases expr <;> dsimp only [inner, valueForm] <;>
    refine lexes_of_fill ?_ (by decide) (by decide) hexpr <;>
    simp only [if_true, String.toList_append, List.append_assoc] <;>
    (repeat rw [String.toList_ofList]) <;> rfl

end EncodeExpr

/-! ## Expressions of decoders -/

namespace DecodeExpr

/-- What an expression says. -/
def unpacking : DecodeExpr → Unpacking
  | byte => .byte
  | narrowed scalar => .narrowed scalar.typedName
  | wide => .number
  | littleEndian scalar => .littleEndian scalar.typedName scalar.byteLength
  | bytes => .bytes
  | text => .text
  | nested stem => .scope (Decoder.name stem)

/-- The functions that an expression calls by a name of the protocol. -/
def functions : DecodeExpr → List (List Char)
  | nested stem => [(Decoder.name stem).toList]
  | _ => []

/-- The form of an expression. -/
def form : DecodeExpr → String
  | byte => "*@.first()?"
  | narrowed _ => "@::try_from(vle_decode(@)).ok()?"
  | wide => "vle_decode(@)"
  | littleEndian _ => "@::from_le_bytes(@.get(..@)?.try_into().ok()?)"
  | bytes => "@.clone()"
  | text => "CString::new(@.iter().copied().take_while(|&b| b != 0).collect::<Vec<u8>>()).ok()?"
  | nested _ => "@(@)?"

/-- The names in the form of an expression. -/
def names (binding : List Char) : DecodeExpr → List (List Char)
  | narrowed scalar => [scalar.typedName.toList, binding]
  | littleEndian scalar =>
      [scalar.typedName.toList, binding, (toString scalar.byteLength).toList]
  | nested stem => [(Decoder.name stem).toList, binding]
  | _ => [binding]

theorem firstForm_binding (binding : List Char) (expr : DecodeExpr) :
    firstForm? unpackings (fillTokens (tokens expr.form) (expr.names binding)) =
      some (expr.unpacking, binding) := by
  cases expr with
  | nested stem =>
      dsimp only [form, names, unpacking]
      unfold unpackings
      repeat rw [tokens_ofList]
      exact congrArg (fun name => some (Unpacking.scope name, binding)) String.ofList_toList
  | narrowed scalar =>
      dsimp only [form, names, unpacking]
      unfold unpackings
      repeat rw [tokens_ofList]
      exact congrArg (fun name => some (Unpacking.narrowed name, binding)) String.ofList_toList
  | littleEndian scalar =>
      dsimp only [form, names, unpacking]
      unfold unpackings
      repeat rw [tokens_ofList]
      have hvalue := Schema.digitsValue_toString scalar.byteLength
      refine (rfl : _ = some (Unpacking.littleEndian (String.ofList scalar.typedName.toList)
        (Schema.digitsValue 10 (toString scalar.byteLength).toList), binding)).trans ?_
      rw [String.ofList_toList, hvalue]
  | _ =>
      dsimp only [form, names, unpacking]
      unfold unpackings
      repeat rw [tokens_ofList]
      rfl

theorem isLexeme_typedName (scalar : Scalar) : IsLexeme scalar.typedName.toList := by
  cases scalar <;> exact IsLexeme.fixed rfl

theorem isLexeme_names {binding : List Char} {expr : DecodeExpr} (hbinding : IsLexeme binding)
    (hexpr : ∀ function ∈ expr.functions, IsLexeme function) :
    ∀ name ∈ expr.names binding, IsLexeme name := by
  cases expr with
  | narrowed scalar =>
      exact List.forall_mem_cons.mpr
        ⟨isLexeme_typedName scalar, List.forall_mem_singleton.mpr hbinding⟩
  | littleEndian scalar =>
      exact List.forall_mem_cons.mpr ⟨isLexeme_typedName scalar, List.forall_mem_cons.mpr
        ⟨hbinding, List.forall_mem_singleton.mpr (isLexeme_toString _)⟩⟩
  | nested stem =>
      exact List.forall_mem_cons.mpr
        ⟨List.forall_mem_singleton.mp hexpr, List.forall_mem_singleton.mpr hbinding⟩
  | _ => exact List.forall_mem_singleton.mpr hbinding

theorem lexes_render {binding : String} {expr : DecodeExpr} (hbinding : IsLexeme binding.toList)
    (hexpr : ∀ function ∈ expr.functions, IsLexeme function) :
    Lexes (expr.render binding) (fillTokens (tokens expr.form) (expr.names binding.toList)) := by
  have hnames := isLexeme_names hbinding hexpr
  cases expr with
  | nested stem =>
      have hrender : (nested stem).render binding =
          Decoder.name stem ++ "(" ++ (binding ++ ")?") := by
        dsimp only [render, Decoder.name]
        simp only [← String.toList_inj, String.toList_append, List.append_assoc]
        repeat rw [String.toList_ofList]
        rfl
      rw [hrender]
      refine lexes_of_fill ?_ (by decide) (by decide) hnames
      simp only [String.toList_append, List.append_assoc]
      repeat rw [String.toList_ofList]
      rfl
  | _ =>
      dsimp only [render, form]
      refine lexes_of_fill ?_ (by decide) (by decide) hnames
      simp only [String.toList_append, List.append_assoc]
      repeat rw [String.toList_ofList]
      rfl

end DecodeExpr

/-! ## Pushes -/

/-- An element that is pushed. -/
structure Push where
  field : String
  variant : String
  optional : Bool
  value : Packing
deriving Repr, DecidableEq

/-- The variant of the element on a line and the expression in it. -/
def element? (front back : List Token) (line : String) : Option (String × List Token) := do
  let (words, rest) ← readFront? front (tokens line)
  let expression ← rest.dropSuffix? back
  some (← words.head?.map String.ofList, expression)

/-- What the lines of a push say, between the first and the last. -/
def push? : List String → Option Push
  | [line] => do
      let (variant, expression) ←
        element? (tokens "payload: LcsfValidAttPayload::@(") (tokens "),") line
      let (value, field) ← firstForm? fieldPackings expression
      some ⟨String.ofList field, variant, false, value⟩
  | [head, present, absent, last] => do
      let field ← (← read? (tokens r"payload: match &payload.@ {") (tokens head)).head?
      let (variant, expression) ←
        element? (tokens "Some(value) => LcsfValidAttPayload::@(") (tokens "),") present
      let value ← firstForm? valuePackings expression
      if absent = indent 3 "None => LcsfValidAttPayload::Empty," ∧ last = indent 2 (closing ++ ",")
      then some ⟨String.ofList field, variant, true, value⟩
      else none
  | _ => none

/-- The pushes of a body that ends with the array; {lit}`seen` holds the lines since a push was
opened, in reverse. -/
def pushesFrom (seen : Option (List String)) : List String → Option (List Push)
  | [] => none
  | line :: rest =>
      match seen with
      | none =>
          if line = indent 1 r"att_arr.push(LcsfValidAtt {" then pushesFrom (some []) rest
          else if line = indent 1 "att_arr" ∧ rest = [] then some []
          else none
      | some seen =>
          if line = indent 1 (closing ++ ");") then do
            let push ← push? seen.reverse
            (pushesFrom none rest).map (push :: ·)
          else pushesFrom (some (line :: seen)) rest

/-- What a field encoder pushes. -/
def FieldEncoder.push (encoder : FieldEncoder) : Push :=
  ⟨encoder.field, encoder.value.variant, encoder.optional, encoder.value.packing⟩

/-- Field encoders with names that are names. -/
structure FieldEncoder.IsLexical (encoder : FieldEncoder) : Prop where
  field : IsLexeme encoder.field.toList
  functions : ∀ function ∈ encoder.value.functions, IsLexeme function

theorem element_of_lexes {front back expression : List Token} {variant line : String}
    (hfront : front.count (.mark '@') = 1)
    (hline : tokens line = fillTokens front [variant.toList] ++ (expression ++ back)) :
    element? front back line = some (variant, expression) := by
  have hsuffix : (expression ++ back).dropSuffix? back = some expression :=
    List.dropSuffix?_eq_some_iff.mpr ⟨back, rfl, beq_self_eq_true back⟩
  rw [element?, hline, readFront_fillTokens front _ [variant.toList] hfront]
  simp only [Option.bind_eq_bind, Option.bind_some, hsuffix, List.head?_cons, Option.map_some,
    String.ofList_toList]

/-- The tokens of a line with an element. -/
theorem tokens_element {expr : EncodeExpr} {start value : String} {borrowed : Bool}
    {front expression : List Token}
    (hfront : Lexes (start ++ "LcsfValidAttPayload::" ++ expr.variant ++ "(")
      (fillTokens front [expr.variant.toList]))
    (hinner : Lexes (expr.inner value borrowed) expression) (level : Nat) :
    tokens (indent level (start ++ expr.render value borrowed ++ ",")) =
      fillTokens front [expr.variant.toList] ++ (expression ++ tokens "),") := by
  have hline : start ++ expr.render value borrowed ++ "," =
      start ++ "LcsfValidAttPayload::" ++ expr.variant ++ "(" ++
        (expr.inner value borrowed ++ "),") := by
    rw [EncodeExpr.render_eq]
    simp only [← String.toList_inj, String.toList_append, List.append_assoc]
    repeat rw [String.toList_ofList]
    rfl
  rw [tokens_indent, hline]
  exact (hfront.append (hinner.append (Lexes.fixed (by decide)))).tokens_eq

section Encoder

variable {encoder : FieldEncoder}

/-- The tokens of the line with the element of a mandatory field. -/
theorem tokens_mandatory (h : encoder.IsLexical) :
    tokens (indent 2
      ("payload: " ++ encoder.value.render ("payload." ++ encoder.field) false ++ ",")) =
        fillTokens (tokens "payload: LcsfValidAttPayload::@(") [encoder.value.variant.toList] ++
          (fillTokens (tokens encoder.value.fieldForm)
            (encoder.value.functions ++ [encoder.field.toList]) ++ tokens "),") := by
  refine tokens_element ?_ (EncodeExpr.lexes_field h.field h.functions) 2
  refine lexes_of_fill ?_ (by decide) (by decide)
    (List.forall_mem_singleton.mpr (EncodeExpr.isLexeme_variant _))
  exact Filled.toList_eq
    (.append (.append (.append (.fixed rfl) (.fixed rfl)) (.word _)) (.fixed rfl))

/-- The tokens of the line with the element of the value of an optional field. -/
theorem tokens_present (h : encoder.IsLexical) :
    tokens (indent 3 ("Some(value) => " ++ encoder.value.render "value" true ++ ",")) =
      fillTokens (tokens "Some(value) => LcsfValidAttPayload::@(")
        [encoder.value.variant.toList] ++
          (fillTokens (tokens encoder.value.valueForm) encoder.value.functions ++ tokens "),") := by
  refine tokens_element ?_ (EncodeExpr.lexes_value h.functions) 3
  refine lexes_of_fill ?_ (by decide) (by decide)
    (List.forall_mem_singleton.mpr (EncodeExpr.isLexeme_variant _))
  exact Filled.toList_eq
    (.append (.append (.append (.fixed rfl) (.fixed rfl)) (.word _)) (.fixed rfl))

theorem push_mandatory (h : encoder.IsLexical) (hmandatory : encoder.optional = false) :
    push? [indent 2
      ("payload: " ++ encoder.value.render ("payload." ++ encoder.field) false ++ ",")] =
        some encoder.push := by
  have hform := encoder.value.firstForm_field encoder.field.toList
  have hcount : (tokens "payload: LcsfValidAttPayload::@(").count (.mark '@') = 1 := by
    rw [tokens_ofList]
    rfl
  have helement := element_of_lexes hcount (tokens_mandatory h)
  simp only [push?, helement, hform, Option.bind_eq_bind, Option.bind_some, String.ofList_toList,
    FieldEncoder.push, hmandatory]

theorem push_optional (h : encoder.IsLexical) (hoptional : encoder.optional = true) :
    push? [indent 2 (opening ("payload: match &payload." ++ encoder.field)),
      indent 3 ("Some(value) => " ++ encoder.value.render "value" true ++ ","),
      indent 3 "None => LcsfValidAttPayload::Empty,", indent 2 (closing ++ ",")] =
        some encoder.push := by
  have hform := encoder.value.firstForm_value
  have hcount : (tokens "Some(value) => LcsfValidAttPayload::@(").count (.mark '@') = 1 := by
    rw [tokens_ofList]
    rfl
  have helement := element_of_lexes hcount (tokens_present h)
  have hfield : read? (tokens r"payload: match &payload.@ {")
      (tokens (indent 2 (opening ("payload: match &payload." ++ encoder.field)))) =
        some [encoder.field.toList] := by
    rw [tokens_indent]
    refine read_of_fill ?_ (by decide) (List.forall_mem_singleton.mpr h.field) rfl
    exact Filled.toList_eq (.append (.append (.fixed rfl) (.word _)) (.fixed rfl))
  simp only [push?, hfield, helement, hform, Option.bind_eq_bind, Option.bind_some,
    List.head?_cons, true_and, if_true, String.ofList_toList, FieldEncoder.push, hoptional]

/-- A push is opened and closed by lines of its own. -/
theorem lines_push (h : encoder.IsLexical) : ∃ lines, push? lines = some encoder.push ∧
    (∀ line ∈ lines, line ≠ indent 1 (closing ++ ");")) ∧
      encoder.lines = indent 1 r"att_arr.push(LcsfValidAtt {" ::
        (lines ++ [indent 1 (closing ++ ");")]) := by
  have hdeeper {level : Nat} (hlevel : 1 < level) (text : String) :
      indent level text ≠ indent 1 (closing ++ ");") :=
    indent_ne hlevel (by decide) text
  cases hoptional : encoder.optional with
  | true =>
      refine ⟨_, push_optional h hoptional, ?_, by rw [FieldEncoder.lines, hoptional]; rfl⟩
      simp only [List.forall_mem_cons]
      exact ⟨hdeeper (by decide) _, hdeeper (by decide) _, hdeeper (by decide) _,
        hdeeper (by decide) _, List.forall_mem_nil _⟩
  | false =>
      refine ⟨_, push_mandatory h hoptional, ?_, by rw [FieldEncoder.lines, hoptional]; rfl⟩
      exact List.forall_mem_singleton.mpr (hdeeper (by decide) _)

theorem pushesFrom_open {lines : List String}
    (hlines : ∀ line ∈ lines, line ≠ indent 1 (closing ++ ");")) (seen rest : List String) :
    pushesFrom (some seen) (lines ++ indent 1 (closing ++ ");") :: rest) =
      (push? (seen.reverse ++ lines)).bind fun push =>
        (pushesFrom none rest).map (push :: ·) := by
  induction lines generalizing seen with
  | nil =>
      rw [List.nil_append, List.append_nil, pushesFrom, if_pos rfl]
      rfl
  | cons line lines ih =>
      rw [List.forall_mem_cons] at hlines
      rw [List.cons_append, pushesFrom, if_neg hlines.1, ih hlines.2, List.reverse_cons,
        List.append_assoc, List.singleton_append]

/-- The pushes of an encoder are read one after the other. -/
theorem pushesFrom_lines {encoders : List FieldEncoder}
    (h : ∀ encoder ∈ encoders, encoder.IsLexical) :
    pushesFrom none (encoders.flatMap FieldEncoder.lines ++ [indent 1 "att_arr"]) =
      some (encoders.map FieldEncoder.push) := by
  induction encoders with
  | nil => decide
  | cons encoder encoders ih =>
      rw [List.forall_mem_cons] at h
      obtain ⟨lines, hpush, hlines, heq⟩ := lines_push h.1
      rw [List.flatMap_cons, heq, List.cons_append, List.cons_append, List.append_assoc,
        List.append_assoc, List.singleton_append, pushesFrom, if_pos rfl, pushesFrom_open hlines,
        ih h.2, List.reverse_nil, List.nil_append, hpush]
      rfl

end Encoder

/-! ## Takes -/

/-- An element that is taken. -/
structure Take where
  index : Nat
  variant : String
  field : String
  optional : Bool
  value : Unpacking
deriving Repr, DecidableEq

/-- The form of the line that looks at an element: the variant, the name bound to its contents
and the index. -/
def lookForm (optional : Bool) : List Token :=
  if optional then
    tokens r"if let Some(LcsfValidAttPayload::@(@)) = att_arr.get(@).map(|att| &att.payload) {"
  else
    tokens r"let Some(LcsfValidAttPayload::@(@)) = att_arr.get(@).map(|att| &att.payload) else {"

/-- What stands on the line that sets a field before the value. -/
def setFront (optional : Bool) : List Token :=
  if optional then tokens "payload.@ = Some(" else tokens "payload.@ = "

/-- What stands on the line that sets a field behind the value. -/
def setBack (optional : Bool) : List Token :=
  if optional then tokens ");" else tokens ";"

/-- What the two lines of a take say, that looks at an element and that sets a field. -/
def take? (optional : Bool) (look set : String) : Option Take :=
  (read? (lookForm optional) (tokens look)).bind fun
    | [variant, binding, index] => do
        let (field, rest) ← readFront? (setFront optional) (tokens set)
        let (value, bound) ← firstForm? unpackings (← rest.dropSuffix? (setBack optional))
        if bound = binding then
          some ⟨Schema.digitsValue 10 index, String.ofList variant, String.ofList (← field.head?),
            optional, value⟩
        else none
    | _ => none

/-- The takes of a body that ends with the struct. -/
def takes? : List String → Option (List Take)
  | look :: second :: third :: rest =>
      if third = indent 1 closing then do
        let take ← take? true look second
        (takes? rest).map (take :: ·)
      else
        match rest with
        | set :: rest =>
            if second = indent 2 "return None;" ∧ third = indent 1 (closing ++ ";") then do
              let take ← take? false look set
              (takes? rest).map (take :: ·)
            else none
        | [] => none
  | [last] => if last = indent 1 "Some(payload)" then some [] else none
  | [_, _] => none
  | [] => none

/-- What a field decoder takes. -/
def FieldDecoder.take (decoder : FieldDecoder) : Take :=
  ⟨decoder.index, decoder.slot.variant, decoder.field, decoder.optional, decoder.value.unpacking⟩

/-- Field decoders with names that are names. -/
structure FieldDecoder.IsLexical (decoder : FieldDecoder) : Prop where
  field : IsLexeme decoder.field.toList
  functions : ∀ function ∈ decoder.value.functions, IsLexeme function

theorem ElementSlot.isLexeme_variant (slot : ElementSlot) : IsLexeme slot.variant.toList := by
  cases slot <;> exact IsLexeme.fixed rfl

theorem ElementSlot.isLexeme_binding (slot : ElementSlot) : IsLexeme slot.binding.toList := by
  cases slot <;> exact IsLexeme.fixed rfl

theorem ElementSlot.isLexeme_look (slot : ElementSlot) {index : Nat} :
    ∀ word ∈ [slot.variant.toList, slot.binding.toList, (toString index).toList],
      IsLexeme word := by
  simp only [List.forall_mem_cons]
  exact ⟨slot.isLexeme_variant, slot.isLexeme_binding, isLexeme_toString index,
    List.forall_mem_nil _⟩

theorem count_lookForm (optional : Bool) : (lookForm optional).count (.mark '@') = 3 := by
  cases optional <;> simp only [lookForm, Bool.false_eq_true, if_true, if_false] <;>
    rw [tokens_ofList] <;> rfl

theorem count_setFront (optional : Bool) : (setFront optional).count (.mark '@') = 1 := by
  cases optional <;> simp only [setFront, Bool.false_eq_true, if_true, if_false] <;>
    rw [tokens_ofList] <;> rfl

/-- The two lines of a take say what is taken. -/
theorem take_of_read {optional : Bool} {look set variant binding field : String} {index : Nat}
    {value : Unpacking} {expression : List Token}
    (hlook : read? (lookForm optional) (tokens look) =
      some [variant.toList, binding.toList, (toString index).toList])
    (hset : tokens set = fillTokens (setFront optional) [field.toList] ++
      (expression ++ setBack optional))
    (hvalue : firstForm? unpackings expression = some (value, binding.toList)) :
    take? optional look set = some ⟨index, variant, field, optional, value⟩ := by
  have hsuffix : (expression ++ setBack optional).dropSuffix? (setBack optional) =
      some expression :=
    List.dropSuffix?_eq_some_iff.mpr ⟨_, rfl, beq_self_eq_true _⟩
  have hfront := readFront_fillTokens (setFront optional) (expression ++ setBack optional)
    [field.toList] (count_setFront optional)
  simp only [take?, hlook, hset, hfront, hsuffix, hvalue, Option.bind_some, Option.bind_eq_bind,
    if_true, List.head?_cons, Schema.digitsValue_toString, String.ofList_toList]

section Decoder

variable {decoder : FieldDecoder}

/-- The tokens of the line that sets an optional field. -/
theorem tokens_set_optional (h : decoder.IsLexical) :
    tokens (indent 2
      ("payload." ++ decoder.field ++ " = Some(" ++ decoder.value.render decoder.slot.binding ++
        ");")) =
      fillTokens (setFront true) [decoder.field.toList] ++
        (fillTokens (tokens decoder.value.form) (decoder.value.names decoder.slot.binding.toList) ++
          setBack true) := by
  have hfront : Lexes ("payload." ++ decoder.field ++ " = Some(")
      (fillTokens (tokens "payload.@ = Some(") [decoder.field.toList]) := by
    refine lexes_of_fill ?_ (by decide) (by decide) (List.forall_mem_singleton.mpr h.field)
    exact Filled.toList_eq (.append (.append (.fixed rfl) (.word _)) (.fixed rfl))
  have hback : Lexes ");" (tokens ");") := Lexes.fixed (by decide)
  rw [setFront, setBack, if_pos rfl, if_pos rfl, tokens_indent, ← List.append_assoc]
  exact ((hfront.append (DecodeExpr.lexes_render decoder.slot.isLexeme_binding h.functions)).append
    hback).tokens_eq

/-- The tokens of the line that sets a mandatory field. -/
theorem tokens_set_mandatory (h : decoder.IsLexical) :
    tokens (indent 1
      ("payload." ++ decoder.field ++ " = " ++ decoder.value.render decoder.slot.binding ++ ";")) =
      fillTokens (setFront false) [decoder.field.toList] ++
        (fillTokens (tokens decoder.value.form) (decoder.value.names decoder.slot.binding.toList) ++
          setBack false) := by
  have hfront : Lexes ("payload." ++ decoder.field ++ " = ")
      (fillTokens (tokens "payload.@ = ") [decoder.field.toList]) := by
    refine lexes_of_fill ?_ (by decide) (by decide) (List.forall_mem_singleton.mpr h.field)
    exact Filled.toList_eq (.append (.append (.fixed rfl) (.word _)) (.fixed rfl))
  have hback : Lexes ";" (tokens ";") := Lexes.fixed (by decide)
  rw [setFront, setBack, if_neg Bool.false_ne_true, if_neg Bool.false_ne_true, tokens_indent,
    ← List.append_assoc]
  exact ((hfront.append (DecodeExpr.lexes_render decoder.slot.isLexeme_binding h.functions)).append
    hback).tokens_eq

/-- The part that the lines looking at an element share. -/
theorem ElementSlot.filled_look (slot : ElementSlot) (index : Nat) :
    Filled ("Some(LcsfValidAttPayload::" ++ slot.variant ++ "(" ++ slot.binding ++
        ")) = att_arr.get(" ++ toString index ++ ").map(|att| &att.payload)")
      "Some(LcsfValidAttPayload::@(@)) = att_arr.get(@).map(|att| &att.payload)".toList
      [slot.variant.toList, slot.binding.toList, (toString index).toList] := by
  rw [String.toList_ofList]
  exact .append (.append (.append (.append (.append (.append (.fixed rfl) (.word _)) (.fixed rfl))
    (.word _)) (.fixed rfl)) (.word _)) (.fixed rfl)

/-- The tokens of the line that looks at the element of an optional field. -/
theorem tokens_look_optional (slot : ElementSlot) (index : Nat) :
    tokens (indent 1 (opening ("if let " ++ ("Some(LcsfValidAttPayload::" ++ slot.variant ++ "(" ++
      slot.binding ++ ")) = att_arr.get(" ++ toString index ++ ").map(|att| &att.payload)")))) =
      fillTokens (lookForm true)
        [slot.variant.toList, slot.binding.toList, (toString index).toList] := by
  rw [lookForm, if_pos rfl, tokens_indent]
  refine tokens_of_fill ?_ (by decide) slot.isLexeme_look
  have hlook := slot.filled_look index
  rw [String.toList_ofList] at hlook
  exact Filled.toList_eq (.append (.append (.fixed rfl) hlook) (.fixed rfl))

/-- The tokens of the line that looks at the element of a mandatory field. -/
theorem tokens_look_mandatory (slot : ElementSlot) (index : Nat) :
    tokens (indent 1 (opening ("let " ++ ("Some(LcsfValidAttPayload::" ++ slot.variant ++ "(" ++
      slot.binding ++ ")) = att_arr.get(" ++ toString index ++ ").map(|att| &att.payload)") ++
        " else"))) =
      fillTokens (lookForm false)
        [slot.variant.toList, slot.binding.toList, (toString index).toList] := by
  rw [lookForm, if_neg Bool.false_ne_true, tokens_indent]
  refine tokens_of_fill ?_ (by decide) slot.isLexeme_look
  have hlook := slot.filled_look index
  rw [String.toList_ofList] at hlook
  exact Filled.toList_eq (.append (.append (.append (.fixed rfl) hlook) (.fixed rfl)) (.fixed rfl))

theorem take_optional (h : decoder.IsLexical) (hoptional : decoder.optional = true) :
    ∃ look set, take? true look set = some decoder.take ∧
      decoder.lines = [look, set, indent 1 closing] := by
  refine ⟨_, _, ?_, by unfold FieldDecoder.lines; rw [hoptional]; rfl⟩
  rw [FieldDecoder.take, hoptional]
  refine take_of_read ?look (tokens_set_optional h)
    (decoder.value.firstForm_binding decoder.slot.binding.toList)
  rw [tokens_look_optional]
  exact read_fillTokens (count_lookForm true)

theorem take_mandatory (h : decoder.IsLexical) (hmandatory : decoder.optional = false) :
    ∃ look set, take? false look set = some decoder.take ∧
      decoder.lines = [look, indent 2 "return None;", indent 1 (closing ++ ";"), set] := by
  refine ⟨_, _, ?_, by unfold FieldDecoder.lines; rw [hmandatory]; rfl⟩
  rw [FieldDecoder.take, hmandatory]
  refine take_of_read ?look (tokens_set_mandatory h)
    (decoder.value.firstForm_binding decoder.slot.binding.toList)
  rw [tokens_look_mandatory]
  exact read_fillTokens (count_lookForm false)

theorem takes_optional (look set : String) (rest : List String) :
    takes? (look :: set :: indent 1 closing :: rest) =
      (take? true look set).bind fun take => (takes? rest).map (take :: ·) := by
  rw [takes?.eq_def]
  exact if_pos rfl

theorem takes_mandatory (look set : String) (rest : List String) :
    takes? (look :: indent 2 "return None;" :: indent 1 (closing ++ ";") :: set :: rest) =
      (take? false look set).bind fun take => (takes? rest).map (take :: ·) := by
  have hclosing : indent 1 (closing ++ ";") ≠ indent 1 closing := by decide
  rw [takes?.eq_def]
  exact (if_neg hclosing).trans (if_pos ⟨rfl, rfl⟩)

/-- The takes of a decoder are read one after the other. -/
theorem takes_lines {decoders : List FieldDecoder} (h : ∀ decoder ∈ decoders, decoder.IsLexical) :
    takes? (decoders.flatMap FieldDecoder.lines ++ [indent 1 "Some(payload)"]) =
      some (decoders.map FieldDecoder.take) := by
  induction decoders with
  | nil => decide
  | cons decoder decoders ih =>
      rw [List.forall_mem_cons] at h
      rw [List.flatMap_cons, List.append_assoc]
      cases hoptional : decoder.optional with
      | true =>
          obtain ⟨look, set, htake, heq⟩ := take_optional h.1 hoptional
          rw [heq, List.cons_append, List.cons_append, List.singleton_append, takes_optional, htake,
            ih h.2]
          rfl
      | false =>
          obtain ⟨look, set, htake, heq⟩ := take_mandatory h.1 hoptional
          rw [heq, List.cons_append, List.cons_append, List.cons_append, List.singleton_append,
            takes_mandatory, htake, ih h.2]
          rfl

end Decoder

end Typed
end CommandSet
