import CommandSet.Proofs.Schema.Clauses

/-!
# Schemas read back

A protocol is read back from every text that says it: whatever spelling its numbers and
descriptions have, and whatever layout stands between its tokens.

Main result:

- Theorem {lit}`parse_of_laidOut`: the text of a protocol parses as that protocol.
-/

namespace CommandSet
namespace Schema

/-- The text of a protocol parses as that protocol. -/
theorem parse_of_laidOut {protocol : Protocol} {tokens : List Token} {source : String}
    (hwritable : Writable protocol) (htokens : ProtocolTokens protocol tokens)
    (hlaid : LaidOut tokens source.toList) : parse source = .ok protocol := by
  obtain ⟨draft, hdraft, mid, hread, -⟩ := document_read hwritable htokens hlaid
  obtain ⟨offset, attempts, hrun⟩ := hread 0 Attempts.none
  have hdraftRead : readDraft source.toList = .ok draft := by
    rw [readDraft, hrun]
  rw [parse, hdraftRead]
  exact hdraft

/-! ## A schema with comments and escapes -/

/-- Tokens can be spread with the same gap behind each. -/
theorem Gap.spread {gap : List Char} (hgap : Gap gap) (tokens : List Token) :
    Spread tokens (tokens.flatMap fun token => token ++ gap) := by
  induction tokens with
  | nil => exact .nil
  | cons token tokens ih =>
      rw [List.flatMap_cons, List.append_assoc]
      exact .cons hgap ih

/-- An attribute with a negative identifier. -/
private def level : Attribute :=
  ⟨"level", -3, true, .uint8, [], ""⟩

/-- A command with that attribute and a description that holds quotes. -/
private def setLevel : Command :=
  ⟨"Set", 7, .aToB, [level], "an \"on\""⟩

private def lamp : Protocol :=
  ⟨"Lamp", 10, [setLevel]⟩

private theorem lamp_writable : Writable lamp where
  protocol_name := isIdentifier_iff.mp (by decide)
  command_names := List.forall_mem_singleton.mpr (isIdentifier_iff.mp (by decide))
  attribute_names := List.forall_mem_singleton.mpr (isIdentifier_iff.mp (by decide))
  command_descriptions := List.forall_mem_singleton.mpr (by decide)
  attribute_descriptions := List.forall_mem_singleton.mpr (by decide)

/-- The words of the protocol up to its last brace: leading zeros, a hexadecimal number,
escaped quotes. -/
private def lampWords : List String :=
  ["protocol", "Lamp", "=", "0x0A", r"{", "command", "Set", "=", "007", "a_to_b",
    "\"an \\\"on\\\"\"", r"{", "optional", "attribute", "level", "=", "-3", ":", "uint8", ";",
    r"}"]

private theorem lamp_tokens : ProtocolTokens lamp (lampWords.map String.toList ++ [['}']]) := by
  have hnegative : NumberToken level.id.toInt ['-', '3'] := .negative 3 0
  have hlevel : AttributeTokens level
      ["optional".toList, "attribute".toList, "level".toList, ['='], ['-', '3'], [':'],
        "uint8".toList, [';']] :=
    .mk hnegative .omitted .terminator
  have hquoted : QuotedChars "an \"on\"".toList "an \\\"on\\\"".toList :=
    .plain (by decide) (.plain (by decide) (.plain (by decide)
      (.quote (.plain (by decide) (.plain (by decide) (.quote .nil))))))
  have hzeros : NumberToken setLevel.id.toInt ['0', '0', '7'] := .decimal 7 2
  have hbody : BodyTokens setLevel.attributes _ := .braces (.cons hlevel .nil)
  have hnumber : NumberToken lamp.id.toNat ['0', 'x', '0', 'A'] :=
    .hexadecimal 10 1 (.inl rfl) (by decide)
  exact .mk hnumber (.cons (.mk hzeros (.quoted hquoted) hbody) .nil)

/-- A schema with an empty comment behind every word. -/
theorem parse_lamp :
    parse
        (String.join
          (["protocol", "Lamp", "=", "0x0A", r"{", "command", "Set", "=", "007", "a_to_b",
          "\"an \\\"on\\\"\"", r"{", "optional", "attribute", "level", "=", "-3", ":", "uint8", ";",
          r"}"].map (· ++ "//\n")) ++ r"}") =
      .ok ⟨"Lamp", 10, [⟨"Set", 7, .aToB, [⟨"level", -3, true, .uint8, [], ""⟩],
        "an \"on\""⟩]⟩ := by
  have hcomment : Layout "//\n".toList := .lineComment List.not_mem_nil .nil
  have hgap : Gap "//\n".toList := ⟨hcomment, by decide⟩
  have hlaid : LaidOut (lampWords.map String.toList ++ [['}']])
      ([] ++ (((lampWords.map String.toList).flatMap fun token => token ++ "//\n".toList) ++
        (['}'] ++ []))) :=
    .mk .nil (hgap.spread _) .nil
  refine parse_of_laidOut lamp_writable lamp_tokens ?_
  have htext : (String.join (lampWords.map (· ++ "//\n")) ++ r"}").toList =
      (lampWords.map String.toList).flatMap (fun token => token ++ "//\n".toList) ++ ['}'] := by
    rw [String.toList_append, String.toList_join, List.flatMap_map, List.flatMap_map]
    simp only [String.toList_append]
    rfl
  exact htext ▸ hlaid

end Schema
end CommandSet
