import CommandSet.Proofs.Recovery.Scanning
import Mathlib.Data.List.Nodup

/-!
# What is kept of a private section

The functions of a private section are looked at one after the other.  Each step adds to
what is kept, so every part of it can be told from the functions alone: the handlers are
the first ones of their commands, the fallback is that of the last dispatcher, and all that
belongs to no command is there in its old order.

Main definitions:

- {lit}`firstOfEach`: the first entry of every key.
- {lit}`ownedHandler?`, {lit}`remainder`: what a function adds to the handlers and to the
  rest.

Main results:

- Theorems {lit}`handlers_ofFunctions`, {lit}`unknown_ofFunctions`,
  {lit}`fallback_ofFunctions`: the parts of what is kept.
- Theorem {lit}`lookup_handlers`: a handler that is kept is found under its command.
- Theorems {lit}`function_of_mem_handlers`, {lit}`function_of_mem_unknown`,
  {lit}`function_of_mem_fallback`: it all comes from functions of the section.
-/

namespace CommandSet
namespace Recovery

/-! ## The first entry of every key -/

/-- Add an entry unless its key has one. -/
def addEntry (entries : List (String × List String)) (entry : String × List String) :
    List (String × List String) :=
  if (entries.lookup entry.1).isSome then entries else entries ++ [entry]

/-- The first entry of every key. -/
def firstOfEach (entries : List (String × List String)) : List (String × List String) :=
  entries.foldl addEntry []

/-- A key that is looked up behind others is found where it stands first. -/
theorem lookup_addEntry (entries : List (String × List String)) (entry : String × List String)
    (key : String) : (addEntry entries entry).lookup key = (entries ++ [entry]).lookup key := by
  unfold addEntry
  split
  next h =>
    rw [List.lookup_append]
    by_cases hkey : key = entry.1
    · subst hkey
      rcases Option.isSome_iff_exists.mp h with ⟨body, hbody⟩
      rw [hbody, Option.some_or]
    · have hne : (key == entry.1) = false := beq_eq_false_iff_ne.mpr hkey
      rw [List.lookup_cons, hne, List.lookup_nil, Option.or_none]
  next => rfl

theorem lookup_foldl_addEntry (kept entries : List (String × List String)) (key : String) :
    (entries.foldl addEntry kept).lookup key = (kept ++ entries).lookup key := by
  induction entries generalizing kept with
  | nil => simp
  | cons entry entries ih =>
      rw [List.foldl_cons, ih, List.lookup_append, lookup_addEntry, ← List.lookup_append,
        List.append_assoc, List.singleton_append]

/-- The first entry of every key is the one that is looked up. -/
theorem lookup_firstOfEach (entries : List (String × List String)) (key : String) :
    (firstOfEach entries).lookup key = entries.lookup key := by
  rw [firstOfEach, lookup_foldl_addEntry, List.nil_append]

theorem not_mem_keys_of_lookup {entries : List (String × List String)} {key : String}
    (h : ¬(entries.lookup key).isSome = true) : key ∉ entries.map (·.1) := by
  rw [Option.not_isSome_iff_eq_none, List.lookup_eq_none_iff] at h
  intro hmem
  rcases List.mem_map.mp hmem with ⟨entry, hentry, rfl⟩
  exact absurd (h entry hentry) (by simp)

theorem nodup_addEntry {entries : List (String × List String)} (h : (entries.map (·.1)).Nodup)
    (entry : String × List String) : ((addEntry entries entry).map (·.1)).Nodup := by
  unfold addEntry
  split
  · exact h
  next hnew =>
    rw [List.map_append, List.map_singleton, List.nodup_append]
    refine ⟨h, List.nodup_singleton _, fun key hkey other hother => ?_⟩
    rw [List.mem_singleton.mp hother]
    exact fun heq => not_mem_keys_of_lookup hnew (heq ▸ hkey)

/-- Every key has one entry only. -/
theorem nodup_firstOfEach (entries : List (String × List String)) :
    ((firstOfEach entries).map (·.1)).Nodup := by
  have hfold (kept : List (String × List String)) (h : (kept.map (·.1)).Nodup) :
      ((entries.foldl addEntry kept).map (·.1)).Nodup := by
    induction entries generalizing kept with
    | nil => exact h
    | cons entry entries ih => exact ih _ (nodup_addEntry h entry)
  exact hfold [] List.nodup_nil

theorem foldl_addEntry_eq_append (kept entries : List (String × List String))
    (h : ((kept ++ entries).map (·.1)).Nodup) : entries.foldl addEntry kept = kept ++ entries := by
  induction entries generalizing kept with
  | nil => simp
  | cons entry entries ih =>
      have hnew : kept.lookup entry.1 = none := by
        rw [List.map_append, List.map_cons, List.nodup_append] at h
        rw [List.lookup_eq_none_iff]
        intro other hother
        have hne := h.2.2 other.1 (List.mem_map_of_mem hother) entry.1 List.mem_cons_self
        exact bne_iff_ne.mpr (Ne.symm hne)
      have hadd : addEntry kept entry = kept ++ [entry] := by simp [addEntry, hnew]
      rw [List.append_cons] at h
      rw [List.foldl_cons, hadd, ih _ h, List.append_cons kept entry entries]

/-- Entries of different keys are all kept. -/
theorem firstOfEach_eq_self {entries : List (String × List String)}
    (h : (entries.map (·.1)).Nodup) : firstOfEach entries = entries :=
  foldl_addEntry_eq_append [] entries h

/-- An entry is found under its key. -/
theorem lookup_of_mem {entries : List (String × List String)} (h : (entries.map (·.1)).Nodup)
    {entry : String × List String} (hmem : entry ∈ entries) :
    entries.lookup entry.1 = some entry.2 := by
  induction entries with
  | nil => cases hmem
  | cons first entries ih =>
      rw [List.map_cons, List.nodup_cons] at h
      rcases List.mem_cons.mp hmem with rfl | hmem
      · exact List.lookup_cons_self
      · have hne : (entry.1 == first.1) = false := by
          rw [beq_eq_false_iff_ne]
          exact fun heq => h.1 (heq ▸ List.mem_map_of_mem hmem)
        rw [List.lookup_cons, hne]
        exact ih h.2 hmem

/-- What is found under a key is an entry. -/
theorem mem_of_lookup {entries : List (String × List String)} {key : String} {body : List String}
    (h : entries.lookup key = some body) : (key, body) ∈ entries := by
  rcases List.lookup_eq_some_iff.mp h with ⟨front, rest, rfl, -⟩
  exact List.mem_append_right _ List.mem_cons_self

/-! ## What a function adds -/

section Functions

variable (protocol : String) (commands : List String)

/-- The handler that a function adds. -/
def ownedHandler? (function : FoundFunction) : Option (String × List String) :=
  match ownerOf protocol commands function.signature with
  | .handler command => some (command, function.body)
  | _ => none

/-- The lines that a function adds to those that belong to no command: the whole function,
or what stands above the comment of one that is written anew. -/
def remainder (function : FoundFunction) : List (List String) :=
  match ownerOf protocol commands function.signature with
  | .nobody => [function.text]
  | _ => if function.leading.isEmpty then [] else [function.leading]

/-- Functions that a dispatcher is read from. -/
def isDispatcher (function : FoundFunction) : Bool :=
  ownerOf protocol commands function.signature == .dispatcher

variable {protocol commands}

theorem keepLeading_eq (code : PrivateCode) (leading : List String) :
    code.keepLeading leading =
      { code with unknown := code.unknown ++ if leading.isEmpty then [] else [leading] } := by
  unfold PrivateCode.keepLeading
  split <;> simp

theorem keepHandler_eq (code : PrivateCode) (command : String) (body : List String) :
    code.keepHandler command body =
      { code with handlers := addEntry code.handlers (command, body) } := by
  unfold PrivateCode.keepHandler addEntry
  split <;> rfl

/-- One function adds its handler, its fallback and the rest. -/
theorem keep_eq (code : PrivateCode) (function : FoundFunction) :
    PrivateCode.keep protocol commands code function =
      { handlers := (ownedHandler? protocol commands function).toList.foldl addEntry code.handlers
        unknown := code.unknown ++ remainder protocol commands function
        fallback :=
          if isDispatcher protocol commands function then fallbackOf function.body
          else code.fallback } := by
  cases howner : ownerOf protocol commands function.signature <;>
    simp [PrivateCode.keep, ownedHandler?, remainder, isDispatcher, howner, keepLeading_eq,
      keepHandler_eq, FoundFunction.text]

/-- All functions of a section add what each of them adds; the last dispatcher counts. -/
theorem foldl_keep_eq (code : PrivateCode) (functions : List FoundFunction) :
    functions.foldl (PrivateCode.keep protocol commands) code =
      { handlers :=
          (functions.filterMap (ownedHandler? protocol commands)).foldl addEntry code.handlers
        unknown := code.unknown ++ functions.flatMap (remainder protocol commands)
        fallback :=
          (functions.filter (isDispatcher protocol commands)).foldl
            (fun _ function => fallbackOf function.body) code.fallback } := by
  induction functions generalizing code with
  | nil => simp
  | cons function functions ih =>
      rw [List.foldl_cons, ih, keep_eq]
      cases hentry : ownedHandler? protocol commands function <;>
        cases hdispatcher : isDispatcher protocol commands function <;>
          simp [hentry, hdispatcher]

/-- The handlers that are kept are the first ones of their commands. -/
theorem handlers_ofFunctions (functions : List FoundFunction) :
    (PrivateCode.ofFunctions protocol commands functions).handlers =
      firstOfEach (functions.filterMap (ownedHandler? protocol commands)) := by
  rw [PrivateCode.ofFunctions, foldl_keep_eq]
  rfl

/-- All that belongs to no command is kept in its order. -/
theorem unknown_ofFunctions (functions : List FoundFunction) :
    (PrivateCode.ofFunctions protocol commands functions).unknown =
      functions.flatMap (remainder protocol commands) := by
  rw [PrivateCode.ofFunctions, foldl_keep_eq]
  rfl

/-- The fallback that is kept is read from the last dispatcher. -/
theorem fallback_ofFunctions (functions : List FoundFunction) :
    (PrivateCode.ofFunctions protocol commands functions).fallback =
      ((functions.filter (isDispatcher protocol commands)).getLast?).bind
        (fun function => fallbackOf function.body) := by
  have hfold (fallback : Option (List String)) (dispatchers : List FoundFunction) :
      dispatchers.foldl (fun _ function => fallbackOf function.body) fallback =
        match dispatchers.getLast? with
        | some function => fallbackOf function.body
        | none => fallback := by
    induction dispatchers generalizing fallback with
    | nil => rfl
    | cons function dispatchers ih =>
        rw [List.foldl_cons, ih, List.getLast?_cons]
        cases dispatchers.getLast? <;> rfl
  rw [PrivateCode.ofFunctions, foldl_keep_eq, hfold]
  cases (functions.filter (isDispatcher protocol commands)).getLast? <;> rfl

/-! ## Where it comes from -/

variable {functions : List FoundFunction}

/-- The handlers of a section are found under the names of their commands. -/
theorem lookup_handlers {handler : String × List String}
    (h : handler ∈ (PrivateCode.ofFunctions protocol commands functions).handlers) :
    (PrivateCode.ofFunctions protocol commands functions).handlers.lookup handler.1 =
      some handler.2 := by
  refine lookup_of_mem ?_ h
  rw [handlers_ofFunctions]
  exact nodup_firstOfEach _

theorem ownedHandler?_eq_some_iff {function : FoundFunction} {handler : String × List String} :
    ownedHandler? protocol commands function = some handler ↔
      ownerOf protocol commands function.signature = .handler handler.1 ∧
        function.body = handler.2 := by
  rcases handler with ⟨command, body⟩
  cases howner : ownerOf protocol commands function.signature <;> simp [ownedHandler?, howner]

/-- A handler is a function of the section. -/
theorem function_of_mem_handlers {handler : String × List String}
    (h : handler ∈ (PrivateCode.ofFunctions protocol commands functions).handlers) :
    ∃ function ∈ functions, ownerOf protocol commands function.signature = .handler handler.1 ∧
      function.body = handler.2 := by
  have hlookup := lookup_handlers h
  rw [handlers_ofFunctions, lookup_firstOfEach] at hlookup
  rcases List.mem_filterMap.mp (mem_of_lookup hlookup) with ⟨function, hfunction, hentry⟩
  exact ⟨function, hfunction, ownedHandler?_eq_some_iff.mp hentry⟩

/-- What belongs to no command is a function of the section, or stands above one. -/
theorem function_of_mem_unknown {lines : List String}
    (h : lines ∈ (PrivateCode.ofFunctions protocol commands functions).unknown) :
    ∃ function ∈ functions,
      (ownerOf protocol commands function.signature = .nobody ∧ lines = function.text) ∨
        (ownerOf protocol commands function.signature ≠ .nobody ∧ function.leading ≠ [] ∧
          lines = function.leading) := by
  rw [unknown_ofFunctions] at h
  rcases List.mem_flatMap.mp h with ⟨function, hfunction, hmem⟩
  refine ⟨function, hfunction, ?_⟩
  unfold remainder at hmem
  split at hmem
  next howner => exact .inl ⟨howner, List.mem_singleton.mp hmem⟩
  next howner =>
    split at hmem
    · cases hmem
    next hne =>
      rw [List.isEmpty_iff] at hne
      exact .inr ⟨howner, hne, List.mem_singleton.mp hmem⟩

/-- The fallback is read from a function of the section. -/
theorem function_of_mem_fallback {block : List String}
    (h : block ∈ (PrivateCode.ofFunctions protocol commands functions).fallback) :
    ∃ function ∈ functions, fallbackOf function.body = some block := by
  rw [fallback_ofFunctions] at h
  rcases Option.bind_eq_some_iff.mp h with ⟨function, hlast, hblock⟩
  exact ⟨function, List.mem_of_mem_filter (List.mem_of_getLast? hlast), hblock⟩

end Functions

end Recovery
end CommandSet
