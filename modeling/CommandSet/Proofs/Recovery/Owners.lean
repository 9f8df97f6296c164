import CommandSet.Proofs.Firmware.Signatures
import CommandSet.Recovery.Recover
import Mathlib.Data.List.Find
import Mathlib.Data.List.MinMax

/-!
# Owners of generated functions

The functions that are generated for the private section are told apart by their
signatures, as long as no command gives its handler the name of another function.

Main definition:

- {lit}`OwnHandler`: commands whose handler is not taken for the dispatcher or the sender.

Main results:

- Theorem {lit}`ownerOf_signature`: an owner can be told from the name of the function.
- Theorem {lit}`ownerOf_dispatcher`, {lit}`ownerOf_sender`, {lit}`ownerOf_handler`: the
  owners of the three kinds of functions.
-/

namespace CommandSet
namespace Recovery

open Firmware

/-! ## The longest name -/

theorem mem_insertByLength {name other : String} {names : List String} :
    other ∈ insertByLength name names ↔ other = name ∨ other ∈ names := by
  induction names with
  | nil => simp [insertByLength]
  | cons first names ih =>
      rw [insertByLength]
      split
      · rw [List.mem_cons]
      · rw [List.mem_cons, ih, List.mem_cons]
        exact or_left_comm

theorem mem_longestFirst {name : String} {names : List String} :
    name ∈ longestFirst names ↔ name ∈ names := by
  induction names with
  | nil => simp [longestFirst]
  | cons first names ih =>
      change name ∈ insertByLength first (longestFirst names) ↔ _
      rw [mem_insertByLength, ih, List.mem_cons]

/-- Names stand in front of those that are not longer. -/
theorem longestFirst_sorted (names : List String) :
    (longestFirst names).Pairwise fun a b => b.utf8ByteSize ≤ a.utf8ByteSize := by
  have hinsert {name : String} {names : List String}
      (h : names.Pairwise fun a b => b.utf8ByteSize ≤ a.utf8ByteSize) :
      (insertByLength name names).Pairwise fun a b => b.utf8ByteSize ≤ a.utf8ByteSize := by
    induction names with
    | nil => exact List.pairwise_singleton _ _
    | cons first names ih =>
        rw [List.pairwise_cons] at h
        rw [insertByLength]
        split
        next hle =>
          refine List.pairwise_cons.mpr ⟨fun other hother => ?_, List.pairwise_cons.mpr h⟩
          rcases List.mem_cons.mp hother with rfl | hrest
          · exact hle
          · exact Nat.le_trans (h.1 other hrest) hle
        next hlt =>
          refine List.pairwise_cons.mpr ⟨fun other hother => ?_, ih h.2⟩
          rcases mem_insertByLength.mp hother with rfl | hrest
          · omega
          · exact h.1 other hrest
  induction names with
  | nil => exact List.Pairwise.nil
  | cons first names ih => exact hinsert ih

/-- The command that is found is one of the longest that a signature names. -/
theorem handledCommand?_longest {protocol command : String} {commands : List String}
    {signature : List Char} (h : handledCommand? protocol commands signature = some command) :
    command ∈ commands ∧ (protocol ++ "Execute" ++ command).toList <:+: signature ∧
      ∀ other ∈ commands, (protocol ++ "Execute" ++ other).toList <:+: signature →
        other.utf8ByteSize ≤ command.utf8ByteSize := by
  rw [handledCommand?] at h
  obtain ⟨hnamed, front, rest, hsplit, hfront⟩ := List.find?_eq_some_iff_append.mp h
  refine ⟨mem_longestFirst.mp (List.mem_of_find?_eq_some h), Text.occursIn_iff.mp hnamed,
    fun other hother hmatch => ?_⟩
  have hmem : other ∈ front ++ command :: rest := by
    rw [← hsplit]
    exact mem_longestFirst.mpr hother
  have hsorted := longestFirst_sorted commands
  rw [hsplit, List.pairwise_append, List.pairwise_cons] at hsorted
  rcases List.mem_append.mp hmem with hmem | hmem
  · -- the signature names none of those in front
    have hnot := hfront other hmem
    rw [Text.occursIn_iff.mpr hmatch] at hnot
    cases hnot
  · rcases List.mem_cons.mp hmem with rfl | hmem
    · exact Nat.le_refl _
    · exact hsorted.2.1.1 other hmem

/-- What is found in sorted names once another one is put among them. -/
theorem find?_insertByLength {p : String → Bool} {name : String} {names : List String}
    (h : names.Pairwise fun a b => b.utf8ByteSize ≤ a.utf8ByteSize) :
    (insertByLength name names).find? p =
      if p name then
        some (match names.find? p with
          | some other => if name.utf8ByteSize < other.utf8ByteSize then other else name
          | none => name)
      else names.find? p := by
  induction names with
  | nil => cases hname : p name <;> simp [insertByLength, hname]
  | cons first names ih =>
      rw [insertByLength]
      split
      next hle =>
        rw [List.find?_cons]
        cases hname : p name with
        | false => rfl
        | true =>
            cases hfound : (first :: names).find? p with
            | none => rfl
            | some other =>
                -- nothing that is found is longer than the first name
                have hother : other.utf8ByteSize ≤ first.utf8ByteSize := by
                  rcases List.mem_cons.mp (List.mem_of_find?_eq_some hfound) with rfl | hmem
                  · exact Nat.le_refl _
                  · exact (List.pairwise_cons.mp h).1 other hmem
                have hnot : ¬name.utf8ByteSize < other.utf8ByteSize := by omega
                simp [hnot]
      next hlt =>
        rw [List.find?_cons, List.find?_cons, ih (List.pairwise_cons.mp h).2]
        have hlonger : name.utf8ByteSize < first.utf8ByteSize := by omega
        cases hfirst : p first with
        | false => rfl
        | true => cases hname : p name <;> simp [hlonger]

/-- The first of the longest names that are looked for is found. -/
theorem find?_longestFirst (p : String → Bool) (names : List String) :
    (longestFirst names).find? p = (names.filter p).argmax String.utf8ByteSize := by
  induction names with
  | nil => rfl
  | cons name names ih =>
      change (insertByLength name (longestFirst names)).find? p = _
      rw [find?_insertByLength (longestFirst_sorted names), ih, List.filter_cons]
      cases hname : p name with
      | false => rfl
      | true =>
          rw [if_pos rfl, if_pos rfl, List.argmax_cons]
          cases (names.filter p).argmax String.utf8ByteSize with
          | none => rfl
          | some other => exact apply_ite some _ _ _

/-- A command whose handler a signature names is found if all others that it names are
shorter. -/
theorem handledCommand?_eq_some {protocol command : String} {commands : List String}
    {signature : List Char} (hmem : command ∈ commands)
    (hnamed : (protocol ++ "Execute" ++ command).toList <:+: signature)
    (hlongest : ∀ other ∈ commands, (protocol ++ "Execute" ++ other).toList <:+: signature →
      other = command ∨ other.utf8ByteSize < command.utf8ByteSize) :
    handledCommand? protocol commands signature = some command := by
  cases hhandled : handledCommand? protocol commands signature with
  | none =>
      rw [handledCommand?] at hhandled
      have hnone := List.find?_eq_none.mp hhandled command (mem_longestFirst.mpr hmem)
      exact absurd (Text.occursIn_iff.mpr hnamed) hnone
  | some other =>
      obtain ⟨hother, hmatch, hle⟩ := handledCommand?_longest hhandled
      rcases hlongest other hother hmatch with rfl | hshort
      · rfl
      · have hcommand := hle command hmem hnamed
        omega

/-! ## Owners -/

/-- Only commands have handlers. -/
theorem mem_commands_of_handler {protocol command : String} {commands signature : List String}
    (h : ownerOf protocol commands signature = .handler command) : command ∈ commands := by
  unfold ownerOf at h
  simp only at h
  split at h
  · cases h
  split at h
  · cases h
  split at h
  next other hhandled =>
    cases h
    exact mem_longestFirst.mp (List.mem_of_find?_eq_some hhandled)
  next => cases h

/-- The dispatcher is known as such. -/
theorem ownerOf_dispatcher {protocol line : String} (commands : List String)
    (h : IsSignature (Dispatcher.name protocol) line) :
    ownerOf protocol commands [line] = .dispatcher := by
  have hfound : Text.occursIn (protocol ++ "DispatchCommand").toList
      (String.intercalate "\n" [line]).toList = true := Text.occursIn_iff.mpr h.text
  simp only [ownerOf, hfound, if_true]

/-- What tells generated names apart stands in a signature if it stands in the name of the
function. -/
private theorem occursIn_signature {name line pattern : String} (h : IsSignature name line)
    (hword : IsWord pattern) {capital : Char} (hcapital : capital ∈ ['D', 'S', 'E'])
    (hmem : capital ∈ pattern.toList) :
    Text.occursIn pattern.toList (String.intercalate "\n" [line]).toList =
      Text.occursIn pattern.toList name.toList := by
  rw [Bool.eq_iff_iff, Text.occursIn_iff, Text.occursIn_iff]
  exact ⟨h.isInfix hword hcapital hmem, fun hname => hname.trans h.text⟩

private theorem occursIn_dispatcher {protocol name line : String} (hprotocol : IsName protocol)
    (h : IsSignature name line) :
    Text.occursIn (protocol ++ "DispatchCommand").toList (String.intercalate "\n" [line]).toList =
      Text.occursIn (protocol ++ "DispatchCommand").toList name.toList := by
  have hword : IsWord "DispatchCommand" := by simp [IsWord, IsNameRest, IsNameStart]
  have hmem : 'D' ∈ (protocol ++ "DispatchCommand").toList := by simp
  exact occursIn_signature h (hprotocol.isWord.append hword) (by simp) hmem

private theorem occursIn_sender {protocol name line : String} (hprotocol : IsName protocol)
    (h : IsSignature name line) :
    Text.occursIn (protocol ++ "SendCommand").toList (String.intercalate "\n" [line]).toList =
      Text.occursIn (protocol ++ "SendCommand").toList name.toList := by
  have hword : IsWord "SendCommand" := by simp [IsWord, IsNameRest, IsNameStart]
  have hmem : 'S' ∈ (protocol ++ "SendCommand").toList := by simp
  exact occursIn_signature h (hprotocol.isWord.append hword) (by simp) hmem

/-- The sender is known as such. -/
theorem ownerOf_sender {protocol line : String} (commands : List String)
    (hprotocol : IsName protocol) (h : IsSignature (senderName protocol) line) :
    ownerOf protocol commands [line] = .sender := by
  have hdispatcher : Text.occursIn (protocol ++ "DispatchCommand").toList
      (String.intercalate "\n" [line]).toList = false := by
    rw [occursIn_dispatcher hprotocol h, ← Bool.not_eq_true, Text.occursIn_iff]
    intro hmatch
    have hlength := hmatch.length_le
    simp [senderName] at hlength
  have hfound : Text.occursIn (protocol ++ "SendCommand").toList
      (String.intercalate "\n" [line]).toList = true := Text.occursIn_iff.mpr h.text
  simp only [ownerOf, hdispatcher, hfound, Bool.false_eq_true, if_false, if_true]

/-- The owner of a generated function can be told from its name. -/
theorem ownerOf_signature {protocol name line : String} {commands : List String}
    (hprotocol : IsName protocol) (hcommands : ∀ command ∈ commands, IsName command)
    (h : IsSignature name line) :
    ownerOf protocol commands [line] = ownerOf protocol commands [name] := by
  have hhandled : handledCommand? protocol commands (String.intercalate "\n" [line]).toList =
      handledCommand? protocol commands name.toList := by
    refine List.find?_congr fun command hcommand => ?_
    have hexecute : IsWord "Execute" := by simp [IsWord, IsNameRest, IsNameStart]
    have hname := (hcommands command (mem_longestFirst.mp hcommand)).isWord
    have hmem : 'E' ∈ (protocol ++ "Execute" ++ command).toList := by simp
    exact occursIn_signature h ((hprotocol.isWord.append hexecute).append hname) (by simp) hmem
  have hname : String.intercalate "\n" [name] = name := String.intercalate_singleton
  simp only [ownerOf, occursIn_dispatcher hprotocol h, occursIn_sender hprotocol h, hhandled, hname]

/-! ## Handlers -/

/-- Commands whose handler is not taken for the dispatcher or the sender. -/
structure OwnHandler (protocol command : String) : Prop where
  dispatcher : ¬(Dispatcher.name protocol).toList <:+: (handlerName protocol command).toList
  sender : ¬(senderName protocol).toList <:+: (handlerName protocol command).toList

instance (protocol command : String) : Decidable (OwnHandler protocol command) :=
  decidable_of_iff
    (¬(Dispatcher.name protocol).toList <:+: (handlerName protocol command).toList ∧
      ¬(senderName protocol).toList <:+: (handlerName protocol command).toList)
    ⟨fun h => ⟨h.1, h.2⟩, fun h => ⟨h.dispatcher, h.sender⟩⟩

/-- A handler with a name of its own belongs to the command that it names, if there is one. -/
theorem ownerOf_handlerName {protocol command : String} (commands : List String)
    (hown : OwnHandler protocol command) :
    ownerOf protocol commands [handlerName protocol command] =
      match handledCommand? protocol commands (handlerName protocol command).toList with
      | some other => .handler other
      | none => .nobody := by
  have hdispatcher : Text.occursIn (protocol ++ "DispatchCommand").toList
      (handlerName protocol command).toList = false := by
    rw [← Bool.not_eq_true, Text.occursIn_iff]
    exact hown.dispatcher
  have hsender : Text.occursIn (protocol ++ "SendCommand").toList
      (handlerName protocol command).toList = false := by
    rw [← Bool.not_eq_true, Text.occursIn_iff]
    exact hown.sender
  cases hhandled : handledCommand? protocol commands (handlerName protocol command).toList <;>
    simp only [ownerOf, String.intercalate_singleton, hdispatcher, hsender, hhandled,
      Bool.false_eq_true, if_false]

/-- A handler with the name of another function in its own is taken for that function. -/
theorem ownerOf_handlerName_of_not_own {protocol command : String} (commands : List String)
    (h : ¬OwnHandler protocol command) :
    ownerOf protocol commands [handlerName protocol command] = .dispatcher ∨
      ownerOf protocol commands [handlerName protocol command] = .sender := by
  simp only [ownerOf, String.intercalate_singleton, Text.occursIn_iff]
  by_cases hdispatcher : (protocol ++ "DispatchCommand").toList <:+:
      (handlerName protocol command).toList
  · exact .inl (if_pos hdispatcher)
  · have hsender : (protocol ++ "SendCommand").toList <:+: (handlerName protocol command).toList :=
      Decidable.by_contra fun hsender => h ⟨hdispatcher, hsender⟩
    exact .inr (by rw [if_neg hdispatcher, if_pos hsender])

/-- The name of a handler names its own command, and all others that it names are shorter. -/
theorem handledCommand?_handlerName {protocol command : String} {commands : List String}
    (hcommands : ∀ other ∈ commands, IsName other) (hmem : command ∈ commands) :
    handledCommand? protocol commands (handlerName protocol command).toList = some command := by
  refine handledCommand?_eq_some hmem List.infix_rfl fun other hother hpattern => ?_
  have hsize := (hcommands other hother).isWord.utf8ByteSize_eq
  have hsizeCommand := (hcommands command hmem).isWord.utf8ByteSize_eq
  have hlength := hpattern.length_le
  simp only [handlerName, String.toList_append, List.length_append] at hlength
  by_cases hequal : other.toList.length = command.toList.length
  · have hwhole : (protocol ++ "Execute" ++ other).toList =
        (protocol ++ "Execute" ++ command).toList :=
      hpattern.sublist.eq_of_length (by simp [handlerName, hequal])
    simp only [String.toList_append, List.append_assoc, List.append_cancel_left_eq] at hwhole
    exact .inl (String.toList_inj.mp hwhole)
  · right
    omega

/-- The handler of a command is known as its own. -/
theorem ownerOf_handler {protocol command line : String} {commands : List String}
    (hprotocol : IsName protocol) (hcommands : ∀ other ∈ commands, IsName other)
    (hmem : command ∈ commands) (hown : OwnHandler protocol command)
    (h : IsSignature (handlerName protocol command) line) :
    ownerOf protocol commands [line] = .handler command := by
  rw [ownerOf_signature hprotocol hcommands h, ownerOf_handlerName commands hown,
    handledCommand?_handlerName hcommands hmem]

end Recovery
end CommandSet
