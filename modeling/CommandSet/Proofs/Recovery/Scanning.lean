import CommandSet.Proofs.Recovery.Braces
import CommandSet.Proofs.Text.Lines
import CommandSet.Proofs.Text.Search
import CommandSet.Recovery.Recover
import Mathlib.Data.List.TakeWhile

/-!
# Scanning a section

Scanning is described by the functions that stand between two states of the scanner.
Both sections are scanned alike; the private one stops at a marker outside of every
function.

Main definitions:

- {lit}`Waits`: lines that may stand above a function.
- {lit}`Begun`, {lit}`Framed`: functions up to a depth, and whole ones.
- {lit}`Scans`: the functions found between two states.

Main results:

- Theorems {lit}`scanPrivate_eq_ok_iff`, {lit}`scanPublic_eq_ok_iff`: the scans of the
  two sections.
- Theorem {lit}`Scans.framed`: only framed functions are found.
- Theorem {lit}`Framed.scans`: framed functions are found as they are.
-/

namespace CommandSet
namespace Recovery

variable {stop : String → Bool}

/-! ## Endings of lists -/

theorem splitEnding_append {α : Type} (p : α → Bool) (xs : List α) :
    (splitEnding p xs).1 ++ (splitEnding p xs).2 = xs := by
  rw [splitEnding, ← List.reverse_append, List.takeWhile_append_dropWhile, List.reverse_reverse]

theorem mem_splitEnding_snd {α : Type} {p : α → Bool} {xs : List α} {x : α}
    (h : x ∈ (splitEnding p xs).2) : p x = true := by
  rw [splitEnding, List.mem_reverse] at h
  exact List.all_eq_true.mp List.all_takeWhile x h

theorem mem_of_mem_splitEnding_snd {α : Type} {p : α → Bool} {xs : List α} {x : α}
    (h : x ∈ (splitEnding p xs).2) : x ∈ xs := by
  rw [← splitEnding_append p xs]
  exact List.mem_append_right _ h

/-- An ending is found where the element in front of it lacks the property. -/
theorem splitEnding_eq {α : Type} {p : α → Bool} {front ending : List α}
    (hfront : ∀ x ∈ front.getLast?, p x = false) (hending : ∀ x ∈ ending, p x = true) :
    splitEnding p (front ++ ending) = (front, ending) := by
  have hreverse : ∀ x ∈ ending.reverse, p x = true := fun x hx => hending x (List.mem_reverse.mp hx)
  have htake : front.reverse.takeWhile p = [] ∧ front.reverse.dropWhile p = front.reverse := by
    rw [← List.head?_reverse] at hfront
    cases hlast : front.reverse with
    | nil => exact ⟨rfl, rfl⟩
    | cons x rest =>
        have hx : p x = false := hfront x (by rw [hlast]; rfl)
        simp [hx]
  rw [splitEnding, List.reverse_append, List.dropWhile_append_of_pos hreverse,
    List.takeWhile_append_of_pos hreverse, htake.1, htake.2, List.append_nil, List.reverse_reverse,
    List.reverse_reverse]

/-! ## Functions -/

/-- Lines outside of functions: without braces, and not the end of the section. -/
structure Quiet (stop : String → Bool) (line : String) : Prop where
  opens : '{' ∉ codePart line
  closes : '}' ∉ codePart line
  stop : stop line = false

/-- Lines that may stand above a function. -/
structure Waits (stop : String → Bool) (line : String) : Prop extends Quiet stop line where
  blank : isBlankLine line = false

/-- A function below the lines that wait for it, up to a line where its depth is
{lit}`depth`. -/
inductive Begun (stop : String → Bool) : Nat → FoundFunction → Prop where
  | mk {pending rest : List String} {line : String} {first depth : Nat}
      (hpending : ∀ l ∈ pending, Waits stop l) (hstop : stop line = false)
      (hopen : '{' ∈ codePart line) (hline : depthAfter 0 (codePart line) = some first)
      (hrest : Descends first rest depth) :
      Begun stop depth
        { FoundFunction.start pending line with
          body := (FoundFunction.start pending line).body ++ rest }

/-- Functions with the lines above them as a section may hold them. -/
def Framed (stop : String → Bool) (function : FoundFunction) : Prop :=
  Begun stop 0 function

/-- The lines of a function and of all that belongs to it. -/
def FoundFunction.text (function : FoundFunction) : List String :=
  function.leading ++ function.doc ++ function.body

/-- Lines that may be part of a signature. -/
def isSignatureLine (line : String) : Bool :=
  !isCommentLine line && !isStatementLine line

/-- A function starts with what stands above its comment, the comment and the
signature. -/
theorem FoundFunction.start_eq (pending : List String) (line : String) :
    FoundFunction.start pending line =
      ⟨(splitEnding isCommentLine (splitEnding isSignatureLine pending).1).1,
        (splitEnding isCommentLine (splitEnding isSignatureLine pending).1).2,
        (splitEnding isSignatureLine pending).2 ++ [line],
        (splitEnding isSignatureLine pending).2 ++ [line]⟩ :=
  rfl

/-- The parts of a function make up the lines that it starts with. -/
theorem FoundFunction.start_text (pending : List String) (line : String) :
    (FoundFunction.start pending line).text = pending ++ [line] := by
  rw [FoundFunction.text, FoundFunction.start_eq]
  simp only
  rw [splitEnding_append, ← List.append_assoc, splitEnding_append]

theorem FoundFunction.start_signature (pending : List String) (line : String) :
    (FoundFunction.start pending line).signature = (FoundFunction.start pending line).body :=
  rfl

/-! ## Scans -/

/-- Between two states of the scanner, lines hold functions; outside of functions no
line ends the section. -/
inductive Scans (stop : String → Bool) :
    Scanner → List SourceLine → List FoundFunction → Scanner → Prop where
  | nil (scanner : Scanner) : Scans stop scanner [] [] scanner
  | cons {scanner next last : Scanner} {line : SourceLine} {lines : List SourceLine}
      {found : Option FoundFunction} {functions : List FoundFunction}
      (hstop : scanner.current = none → stop line.text = false)
      (hfeed : scanner.feed line = .ok (next, found))
      (hlines : Scans stop next lines functions last) :
      Scans stop scanner (line :: lines) (found.toList ++ functions) last

theorem Scans.append {scanner middle last : Scanner} {first second : List SourceLine}
    {functions more : List FoundFunction} (hfirst : Scans stop scanner first functions middle)
    (hsecond : Scans stop middle second more last) :
    Scans stop scanner (first ++ second) (functions ++ more) last := by
  induction hfirst with
  | nil => exact hsecond
  | cons hstop hfeed _ ih =>
      rw [List.append_assoc]
      exact .cons hstop hfeed (ih hsecond)

theorem bind_eq_ok_iff {ε α β : Type} {first : Except ε α} {second : α → Except ε β} {b : β} :
    first >>= second = .ok b ↔ ∃ a, first = .ok a ∧ second a = .ok b := by
  cases first <;> simp [bind, Except.bind]

theorem Scans.cons_iff {scanner last : Scanner} {line : SourceLine} {lines : List SourceLine}
    {functions : List FoundFunction} :
    Scans stop scanner (line :: lines) functions last ↔
      (scanner.current = none → stop line.text = false) ∧
        ∃ next found more, scanner.feed line = .ok (next, found) ∧ Scans stop next lines more last ∧
          functions = found.toList ++ more := by
  constructor
  · intro h
    cases h with
    | cons hstop hfeed hlines => exact ⟨hstop, _, _, _, hfeed, hlines, rfl⟩
  · rintro ⟨hstop, next, found, more, hfeed, hlines, rfl⟩
    exact .cons hstop hfeed hlines

/-- A section is scanned line by line, whatever is left at its end. -/
theorem feed_bind_eq_ok_iff {α : Type} {scanner : Scanner} {line : SourceLine}
    {scan : Scanner → Except RecoveryError (List FoundFunction × α)}
    {functions : List FoundFunction} {rest : α} :
    (do
      let (scanner, found) ← scanner.feed line
      let (functions, rest) ← scan scanner
      pure (found.toList ++ functions, rest)) = .ok (functions, rest) ↔
    ∃ next found more, scanner.feed line = .ok (next, found) ∧ scan next = .ok (more, rest) ∧
      functions = found.toList ++ more := by
  constructor
  · intro h
    obtain ⟨⟨next, found⟩, hfeed, h⟩ := bind_eq_ok_iff.mp h
    obtain ⟨⟨more, after⟩, hmore, h⟩ := bind_eq_ok_iff.mp h
    cases h
    exact ⟨next, found, more, hfeed, hmore, rfl⟩
  · rintro ⟨next, found, more, hfeed, hmore, rfl⟩
    rw [hfeed]
    simp only [bind, Except.bind, hmore]
    rfl

/-- The private section is scanned up to the marker of the public one. -/
theorem scanPrivate_eq_ok_iff {scanner : Scanner} {lines rest : List SourceLine}
    {functions : List FoundFunction} {pending : List String} :
    scanPrivate scanner lines = .ok (functions, pending, rest) ↔
      ∃ front marker, lines = front ++ marker :: rest ∧
        Marker.publicFunctions.isOn marker.text = true ∧
        Scans Marker.publicFunctions.isOn scanner front functions ⟨pending, none⟩ := by
  induction lines generalizing scanner functions with
  | nil => simp [scanPrivate]
  | cons line lines ih =>
      rw [scanPrivate]
      split
      next hmarker =>
        rw [Bool.and_eq_true, Option.isNone_iff_eq_none] at hmarker
        constructor
        · intro h
          obtain ⟨before, current⟩ := scanner
          obtain ⟨rfl, hmarker⟩ := hmarker
          cases h
          exact ⟨[], line, rfl, hmarker, .nil _⟩
        · rintro ⟨front, marker, hlines, -, hscans⟩
          cases front with
          | nil =>
              obtain ⟨rfl, rfl⟩ := List.cons.inj hlines
              cases hscans
              rfl
          | cons first front =>
              obtain ⟨rfl, -⟩ := List.cons.inj hlines
              have hstop := (Scans.cons_iff.mp hscans).1 hmarker.1
              rw [hmarker.2] at hstop
              cases hstop
      next hother =>
        rw [Bool.and_eq_true, Option.isNone_iff_eq_none, not_and, Bool.not_eq_true] at hother
        refine (@feed_bind_eq_ok_iff _ scanner line (scanPrivate · lines) functions
          (pending, rest)).trans ?_
        constructor
        · rintro ⟨next, found, more, hfeed, hmore, rfl⟩
          obtain ⟨front, marker, rfl, hon, hscans⟩ := ih.mp hmore
          exact ⟨line :: front, marker, rfl, hon, .cons hother hfeed hscans⟩
        · rintro ⟨front, marker, hlines, hon, hscans⟩
          cases front with
          | nil =>
              obtain ⟨rfl, rfl⟩ := List.cons.inj hlines
              cases hscans
              rw [hother rfl] at hon
              cases hon
          | cons first front =>
              obtain ⟨rfl, rfl⟩ := List.cons.inj hlines
              obtain ⟨-, next, found, more, hfeed, hmore, rfl⟩ := Scans.cons_iff.mp hscans
              exact ⟨next, found, more, hfeed, ih.mpr ⟨front, marker, rfl, hon, hmore⟩, rfl⟩

/-- The public section is scanned to the end of the text. -/
theorem scanPublic_eq_ok_iff {scanner : Scanner} {lines : List SourceLine}
    {functions : List FoundFunction} {trailing : List String} :
    scanPublic scanner lines = .ok (functions, trailing) ↔
      Scans (fun _ => false) scanner lines functions ⟨trailing, none⟩ := by
  induction lines generalizing scanner functions with
  | nil =>
      rw [scanPublic]
      constructor
      · intro h
        split at h
        next => cases h
        next hcurrent =>
          obtain ⟨pending, current⟩ := scanner
          cases h
          cases hcurrent
          exact .nil _
      · intro h
        cases h
        rfl
  | cons line lines ih =>
      rw [scanPublic, Scans.cons_iff]
      refine (@feed_bind_eq_ok_iff _ scanner line (scanPublic · lines) functions trailing).trans ?_
      simp only [ih, implies_true, true_and]

/-! ## What is found -/

/-- The states between two lines: what waits may stand above a function, and a function
that is not closed yet has begun. -/
structure Scanner.Sound (stop : String → Bool) (scanner : Scanner) : Prop where
  pending : ∀ l ∈ scanner.pending, Waits stop l
  current : ∀ current ∈ scanner.current,
    current.depth ≠ 0 ∧ Begun stop current.depth current.function

theorem Scanner.initial_sound : Scanner.initial.Sound stop where
  pending := fun _ h => absurd h List.not_mem_nil
  current := fun _ h => absurd h (Option.not_mem_none _)

/-- A line that is read keeps a function going or closes it. -/
theorem Scanner.close_sound {depth : Nat} (since : Nat) {function : FoundFunction}
    (h : Begun stop depth function) :
    (Scanner.close depth since function).1.Sound stop ∧
      ∀ f ∈ (Scanner.close depth since function).2, Framed stop f := by
  unfold Scanner.close
  split
  next hdepth =>
    subst hdepth
    refine ⟨Scanner.initial_sound, fun f hf => ?_⟩
    obtain rfl := Option.mem_some_iff.mp hf
    exact h
  next hdepth =>
    refine ⟨⟨fun _ h => absurd h List.not_mem_nil, fun current hcurrent => ?_⟩,
      fun f hf => absurd hf (Option.not_mem_none f)⟩
    obtain rfl := Option.mem_some_iff.mp hcurrent
    exact ⟨hdepth, h⟩

theorem Begun.snoc {depth next : Nat} {function : FoundFunction} {line : String}
    (h : Begun stop depth function) (hdepth : depth ≠ 0)
    (hline : depthAfter depth (codePart line) = some next) :
    Begun stop next { function with body := function.body ++ [line] } := by
  cases h with
  | mk hpending hstop hopen hfirst hrest =>
      rw [List.append_assoc]
      exact .mk hpending hstop hopen hfirst (hrest.append (.cons hdepth hline (.nil next)))

theorem closes_of_not_opens {code : List Char} {depth : Nat} (hopen : '{' ∉ code)
    (h : depthAfter 0 code = some depth) : '}' ∉ code := by
  have hcount := (depthAfter_eq_some_iff.mp h).1 code List.prefix_rfl
  rw [List.count_eq_zero.mpr hopen] at hcount
  exact List.count_eq_zero.mp (Nat.le_zero.mp hcount)

/-- Every line keeps the state sound, and a function that ends on it is framed. -/
theorem Scanner.feed_sound {scanner next : Scanner} {line : SourceLine}
    {found : Option FoundFunction} (hsound : scanner.Sound stop)
    (hstop : scanner.current = none → stop line.text = false)
    (hfeed : scanner.feed line = .ok (next, found)) :
    next.Sound stop ∧ ∀ f ∈ found, Framed stop f := by
  rw [Scanner.feed, walkBraces_eq] at hfeed
  cases hdepth : depthAfter scanner.depth (codePart line.text) with
  | none => simp [hdepth] at hfeed
  | some depth =>
      simp only [hdepth, Option.map_some, Bool.false_or] at hfeed
      cases hcurrent : scanner.current with
      | some current =>
          simp only [hcurrent] at hfeed
          obtain ⟨hne, hbegun⟩ := hsound.current current hcurrent
          have hfrom : scanner.depth = current.depth := by
            simp [Scanner.depth, hcurrent]
          rw [hfrom] at hdepth
          have hclosed := Scanner.close_sound current.since (hbegun.snoc hne hdepth)
          rw [Except.ok.inj hfeed] at hclosed
          exact hclosed
      | none =>
          simp only [hcurrent] at hfeed
          have hfrom : scanner.depth = 0 := by simp [Scanner.depth, hcurrent]
          rw [hfrom] at hdepth
          split at hfeed
          next hopen =>
            rw [List.contains_iff_mem] at hopen
            have hbegun : Begun stop depth (FoundFunction.start scanner.pending line.text) := by
              have hmk := Begun.mk hsound.pending (hstop hcurrent) hopen hdepth (.nil depth)
              rwa [List.append_nil] at hmk
            have hclosed := Scanner.close_sound line.number hbegun
            rw [Except.ok.inj hfeed] at hclosed
            exact hclosed
          next hopen =>
            rw [List.contains_iff_mem] at hopen
            have hquiet : Quiet stop line.text :=
              ⟨hopen, closes_of_not_opens hopen hdepth, hstop hcurrent⟩
            split at hfeed
            next hblank =>
              cases hfeed
              exact ⟨hsound, fun f hf => absurd hf (Option.not_mem_none f)⟩
            next hblank =>
              cases hfeed
              refine ⟨⟨?_, fun current h => absurd h (Option.not_mem_none current)⟩,
                fun f hf => absurd hf (Option.not_mem_none f)⟩
              rw [List.forall_mem_append, List.forall_mem_singleton]
              exact ⟨hsound.pending, hquiet, Bool.not_eq_true _ ▸ hblank⟩

/-- Only framed functions are found, and what is left waits. -/
theorem Scans.framed {scanner last : Scanner} {lines : List SourceLine}
    {functions : List FoundFunction} (h : Scans stop scanner lines functions last)
    (hsound : scanner.Sound stop) : last.Sound stop ∧ ∀ f ∈ functions, Framed stop f := by
  induction h with
  | nil => exact ⟨hsound, fun f hf => absurd hf List.not_mem_nil⟩
  | cons hstop hfeed _ ih =>
      obtain ⟨hnext, hfound⟩ := Scanner.feed_sound hsound hstop hfeed
      obtain ⟨hlast, hmore⟩ := ih hnext
      refine ⟨hlast, ?_⟩
      rw [List.forall_mem_append]
      exact ⟨fun f hf => hfound f (Option.mem_toList.mp hf), hmore⟩

/-! ## Where the lines come from -/

/-- The lines that a state holds. -/
def Scanner.text (scanner : Scanner) : List String :=
  match scanner.current with
  | some current => current.function.text
  | none => scanner.pending

theorem Scanner.close_text (depth since : Nat) (function : FoundFunction) :
    (Scanner.close depth since function).2.toList.flatMap FoundFunction.text ++
      (Scanner.close depth since function).1.text = function.text := by
  unfold Scanner.close
  split <;> simp [Scanner.text, Scanner.initial]

/-- Lines of blanks only hold no code but blanks. -/
theorem isBlank_of_isBlankLine {line : String} (h : isBlankLine line = true) :
    ∀ c ∈ codePart line, Text.isBlank c = true := by
  rw [isBlankLine, List.isEmpty_iff, trimmed, Text.trim, Text.trimEnd, List.reverse_eq_nil_iff,
    List.dropWhile_eq_nil_iff] at h
  intro c hc
  have hmem : c ∈ line.toList := (Text.before_isPrefix _ line.toList).subset hc
  rw [← @List.takeWhile_append_dropWhile _ Text.isBlank line.toList, List.mem_append] at hmem
  rcases hmem with hleading | hrest
  · exact List.all_eq_true.mp List.all_takeWhile c hleading
  · exact h c (List.mem_reverse.mpr hrest)

/-- What is kept of a line: nothing of a blank one outside of functions. -/
def Scanner.kept (scanner : Scanner) (line : String) : List String :=
  if scanner.current.isNone && isBlankLine line then [] else [line]

/-- A line is kept behind the lines before it. -/
theorem Scanner.feed_text {scanner next : Scanner} {line : SourceLine}
    {found : Option FoundFunction} (hfeed : scanner.feed line = .ok (next, found)) :
    found.toList.flatMap FoundFunction.text ++ next.text =
      scanner.text ++ scanner.kept line.text := by
  rw [Scanner.feed, walkBraces_eq] at hfeed
  cases hdepth : depthAfter scanner.depth (codePart line.text) with
  | none => simp [hdepth] at hfeed
  | some depth =>
      simp only [hdepth, Option.map_some, Bool.false_or] at hfeed
      have hclose {since : Nat} {function : FoundFunction}
          (h : Except.ok (Scanner.close depth since function) =
            (Except.ok (next, found) : Except RecoveryError _)) :
          found.toList.flatMap FoundFunction.text ++ next.text = function.text := by
        have htext := Scanner.close_text depth since function
        rwa [Except.ok.inj h] at htext
      cases hcurrent : scanner.current with
      | some current =>
          simp only [hcurrent] at hfeed
          rw [hclose hfeed]
          simp [Scanner.text, Scanner.kept, hcurrent, FoundFunction.text]
      | none =>
          have hpending : scanner.text = scanner.pending := by simp [Scanner.text, hcurrent]
          simp only [hcurrent] at hfeed
          split at hfeed
          next hopen =>
            -- a line with an opening brace is not blank
            have hblank : ¬isBlankLine line.text = true := by
              intro hblank
              have hbrace := isBlank_of_isBlankLine hblank _ (List.contains_iff_mem.mp hopen)
              exact absurd hbrace (by decide)
            rw [hclose hfeed, FoundFunction.start_text, hpending]
            simp [Scanner.kept, hblank]
          next =>
            split at hfeed
            next hblank =>
              cases hfeed
              simp [Scanner.kept, hcurrent, hblank]
            next hblank =>
              cases hfeed
              simp [Scanner.text, Scanner.kept, hcurrent, hblank]

/-- Scanning drops lines, and neither changes nor moves any. -/
theorem Scans.sublist {scanner last : Scanner} {lines : List SourceLine}
    {functions : List FoundFunction} (h : Scans stop scanner lines functions last) :
    (functions.flatMap FoundFunction.text ++ last.text).Sublist
      (scanner.text ++ lines.map (·.text)) := by
  induction h with
  | nil => simp
  | @cons scanner next last line lines found functions hstop hfeed _ ih =>
      have hkept : (scanner.kept line.text).Sublist [line.text] := by
        unfold Scanner.kept
        split
        · exact List.nil_sublist _
        · exact List.Sublist.refl _
      have hrest := ih.append_left (found.toList.flatMap FoundFunction.text)
      rw [← List.append_assoc _ next.text, Scanner.feed_text hfeed, List.append_assoc] at hrest
      rw [List.flatMap_append, List.append_assoc, List.map_cons]
      exact hrest.trans ((hkept.append_right _).append_left _)

/-! ## Functions read back -/

/-- Lines outside of functions wait, blank ones apart. -/
theorem scans_quiet (pending : List String) {lines : List String} (h : ∀ l ∈ lines, Quiet stop l)
    (number : Nat) :
    Scans stop ⟨pending, none⟩ (numberLines number lines) []
      ⟨pending ++ lines.filter (fun l => !isBlankLine l), none⟩ := by
  induction lines generalizing pending number with
  | nil =>
      rw [List.filter_nil, List.append_nil]
      exact .nil _
  | cons line lines ih =>
      rw [List.forall_mem_cons] at h
      obtain ⟨hquiet, hlines⟩ := h
      have hwalk : walkBraces (Scanner.depth ⟨pending, none⟩) false (codePart line) =
          some (0, false) := by
        have hcontains : (codePart line).contains '{' = false := by
          rw [← Bool.not_eq_true, List.contains_iff_mem]
          exact hquiet.opens
        have hdepth : Scanner.depth ⟨pending, none⟩ = 0 := rfl
        rw [walkBraces_eq, hdepth, depthAfter_of_braceless hquiet.opens hquiet.closes, hcontains]
        rfl
      cases hblank : isBlankLine line with
      | true =>
          have hfeed : Scanner.feed ⟨pending, none⟩ ⟨number, line⟩ =
              .ok (⟨pending, none⟩, none) := by
            simp [Scanner.feed, hwalk, hblank]
          have hfilter : (line :: lines).filter (fun l => !isBlankLine l) =
              lines.filter (fun l => !isBlankLine l) := by
            simp [hblank]
          rw [hfilter]
          exact .cons (fun _ => hquiet.stop) hfeed (ih pending hlines (number + 1))
      | false =>
          have hfeed : Scanner.feed ⟨pending, none⟩ ⟨number, line⟩ =
              .ok (⟨pending ++ [line], none⟩, none) := by
            simp [Scanner.feed, hwalk, hblank]
          have hfilter : (line :: lines).filter (fun l => !isBlankLine l) =
              line :: lines.filter (fun l => !isBlankLine l) := by
            simp [hblank]
          have hrest := ih (pending ++ [line]) hlines (number + 1)
          rw [List.append_assoc, List.singleton_append] at hrest
          rw [hfilter]
          exact .cons (fun _ => hquiet.stop) hfeed hrest

/-- A function that has begun ends with its last line. -/
theorem scans_descends {depth : Nat} {rest : List String} (h : Descends depth rest 0)
    (since number : Nat) (function : FoundFunction) :
    ∃ functions, Scans stop (Scanner.close depth since function).1 (numberLines number rest)
      functions Scanner.initial ∧
      (Scanner.close depth since function).2.toList ++ functions =
        [{ function with body := function.body ++ rest }] := by
  generalize hlast : 0 = last at h
  induction h generalizing number function with
  | nil depth =>
      subst hlast
      refine ⟨[], ?_, ?_⟩
      · exact .nil _
      · simp [Scanner.close]
  | @cons depth next last line lines hdepth hline _ ih =>
      obtain ⟨functions, hscans, hfound⟩ :=
        ih (number + 1) { function with body := function.body ++ [line] } hlast
      have hopen : Scanner.close depth since function =
          (⟨[], some ⟨since, depth, function⟩⟩, none) := by
        rw [Scanner.close, if_neg hdepth]
      rw [hopen]
      have hfeed : Scanner.feed ⟨[], some ⟨since, depth, function⟩⟩ ⟨number, line⟩ =
          .ok (Scanner.close next since { function with body := function.body ++ [line] }) := by
        have hfrom : Scanner.depth ⟨[], some ⟨since, depth, function⟩⟩ = depth := rfl
        simp [Scanner.feed, hfrom, walkBraces_eq, hline]
      refine ⟨_, .cons (fun h => by cases h) hfeed hscans, ?_⟩
      rw [List.append_assoc, List.singleton_append] at hfound
      exact hfound

theorem numberLines_append (start : Nat) (first second : List String) :
    numberLines start (first ++ second) =
      numberLines start first ++ numberLines (start + first.length) second := by
  induction first generalizing start with
  | nil => rfl
  | cons line first ih =>
      rw [List.cons_append, numberLines, numberLines, ih, List.length_cons, List.cons_append]
      congr 3
      omega

theorem map_text_numberLines (start : Nat) (lines : List String) :
    (numberLines start lines).map (·.text) = lines := by
  induction lines generalizing start with
  | nil => rfl
  | cons line lines ih => rw [numberLines, List.map_cons, ih]

/-- Lines that wait are kept. -/
theorem filter_waits {lines : List String} (h : ∀ l ∈ lines, Waits stop l) :
    lines.filter (fun l => !isBlankLine l) = lines := by
  rw [List.filter_eq_self]
  intro l hl
  rw [(h l hl).blank]
  rfl

/-- What waits above the opening line, cut where the function starts. -/
theorem FoundFunction.start_parts (pending : List String) (line : String) :
    ∃ signature, (FoundFunction.start pending line).signature = signature ++ [line] ∧
      (FoundFunction.start pending line).leading ++ (FoundFunction.start pending line).doc ++
        signature = pending := by
  refine ⟨(splitEnding isSignatureLine pending).2, rfl, ?_⟩
  rw [FoundFunction.start_eq]
  simp only
  rw [splitEnding_append, splitEnding_append]

/-- A framed function is found as it is, whatever blank lines stand above it. -/
theorem Framed.scans {function : FoundFunction} (h : Framed stop function) {above : List String}
    (hquiet : ∀ l ∈ above, Quiet stop l)
    (habove : above.filter (fun l => !isBlankLine l) = function.leading ++ function.doc)
    (number : Nat) :
    Scans stop Scanner.initial (numberLines number (above ++ function.body)) [function]
      Scanner.initial := by
  generalize hdepth : 0 = depth at h
  cases h with
  | @mk pending rest line first _ hpending hstop hopen hline hrest =>
      subst hdepth
      obtain ⟨signature, hsignature, hparts⟩ := FoundFunction.start_parts pending line
      simp only at habove ⊢
      have hwaits : ∀ l ∈ signature, Waits stop l := by
        intro l hl
        refine hpending l ?_
        rw [← hparts]
        exact List.mem_append_right _ hl
      -- the lines above the opening line
      have hbefore : ∀ l ∈ above ++ signature, Quiet stop l := by
        rw [List.forall_mem_append]
        exact ⟨hquiet, fun l hl => (hwaits l hl).toQuiet⟩
      have hscan := scans_quiet [] hbefore number
      rw [List.nil_append, List.filter_append, habove, filter_waits hwaits, hparts] at hscan
      -- the opening line
      have hwalk : walkBraces (Scanner.depth ⟨pending, none⟩) false (codePart line) =
          some (first, true) := by
        have hfrom : Scanner.depth ⟨pending, none⟩ = 0 := rfl
        have hcontains : (codePart line).contains '{' = true := List.contains_iff_mem.mpr hopen
        rw [walkBraces_eq, hfrom, hline, hcontains]
        rfl
      have hfeed (n : Nat) : Scanner.feed ⟨pending, none⟩ ⟨n, line⟩ =
          .ok (Scanner.close first n (FoundFunction.start pending line)) := by
        simp [Scanner.feed, hwalk]
      -- the lines below it
      obtain ⟨functions, hbelow, hfound⟩ := scans_descends hrest
        (number + (above ++ signature).length)
        (number + (above ++ signature).length + 1) (FoundFunction.start pending line)
      have hlines : above ++ ((FoundFunction.start pending line).body ++ rest) =
          (above ++ signature) ++ (line :: rest) := by
        rw [← FoundFunction.start_signature, hsignature]
        simp
      rw [hlines, numberLines_append, numberLines, ← hfound]
      exact hscan.append (.cons (fun _ => hstop) (hfeed _) hbelow)

/-- A function starts below other lines and a comment, each of which ends where the next
begins. -/
theorem FoundFunction.start_above {leading doc signature : List String} (line : String)
    (hleading : ∀ l ∈ leading.getLast?, isCommentLine l = false)
    (hdoc : ∀ l ∈ doc, isCommentLine l = true)
    (habove : ∀ l ∈ (leading ++ doc).getLast?, isSignatureLine l = false)
    (hsignature : ∀ l ∈ signature, isSignatureLine l = true) :
    FoundFunction.start (leading ++ doc ++ signature) line =
      ⟨leading, doc, signature ++ [line], signature ++ [line]⟩ := by
  rw [FoundFunction.start_eq, splitEnding_eq habove hsignature]
  simp only [splitEnding_eq hleading hdoc]

/-- A comment line is no part of a signature. -/
theorem isSignatureLine_of_comment {line : String} (h : isCommentLine line = true) :
    isSignatureLine line = false := by
  rw [isSignatureLine, h]
  rfl

/-- A function below a comment starts with its signature. -/
theorem FoundFunction.start_doc {doc signature : List String} (line : String)
    (hdoc : ∀ l ∈ doc, isCommentLine l = true)
    (hsignature : ∀ l ∈ signature, isSignatureLine l = true) :
    FoundFunction.start (doc ++ signature) line =
      ⟨[], doc, signature ++ [line], signature ++ [line]⟩ :=
  @FoundFunction.start_above [] doc signature line (by simp) hdoc
    (fun l hl => isSignatureLine_of_comment (hdoc l (List.mem_of_getLast? hl))) hsignature

/-- A function keeps its signature and its body under any other lines and comment. -/
theorem Framed.reabove {function : FoundFunction} (h : Framed stop function)
    {leading doc : List String} (hwaits : ∀ l ∈ leading ++ doc, Waits stop l)
    (hleading : ∀ l ∈ leading.getLast?, isCommentLine l = false)
    (hdoc : ∀ l ∈ doc, isCommentLine l = true)
    (habove : ∀ l ∈ (leading ++ doc).getLast?, isSignatureLine l = false) :
    Framed stop { function with leading := leading, doc := doc } := by
  generalize hdepth : 0 = depth at h
  cases h with
  | @mk pending rest line first _ hpending hstop hopen hline hrest =>
      subst hdepth
      have hsignature : ∀ l ∈ (splitEnding isSignatureLine pending).2, isSignatureLine l = true :=
        fun l hl => mem_splitEnding_snd hl
      have hall : ∀ l ∈ leading ++ doc ++ (splitEnding isSignatureLine pending).2,
          Waits stop l := by
        rw [List.forall_mem_append]
        exact ⟨hwaits, fun l hl => hpending l (mem_of_mem_splitEnding_snd hl)⟩
      have hbegun := Begun.mk hall hstop hopen hline hrest
      rw [FoundFunction.start_above line hleading hdoc habove hsignature] at hbegun
      exact hbegun

/-- A function keeps its signature and its body under any other comment. -/
theorem Framed.redoc {function : FoundFunction} (h : Framed stop function) {doc : List String}
    (hwaits : ∀ l ∈ doc, Waits stop l) (hcomment : ∀ l ∈ doc, isCommentLine l = true) :
    Framed stop { function with leading := [], doc := doc } :=
  h.reabove hwaits (by simp) hcomment
    fun l hl => isSignatureLine_of_comment (hcomment l (List.mem_of_getLast? hl))

/-- A function of a comment, a line that opens it, and lines down to its end. -/
theorem framed_of_doc {doc rest : List String} {line : String} {first : Nat}
    (hwaits : ∀ l ∈ doc, Waits stop l) (hcomment : ∀ l ∈ doc, isCommentLine l = true)
    (hstop : stop line = false) (hopen : '{' ∈ codePart line)
    (hline : depthAfter 0 (codePart line) = some first) (hrest : Descends first rest 0) :
    Framed stop ⟨[], doc, [line], line :: rest⟩ := by
  have hbegun := Begun.mk hwaits hstop hopen hline hrest
  have hstart : FoundFunction.start (doc ++ []) line = ⟨[], doc, [line], [line]⟩ :=
    FoundFunction.start_doc line hcomment (by simp)
  rw [List.append_nil] at hstart
  rw [hstart] at hbegun
  exact hbegun

/-- Functions that can be written and found again: framed, and made of lines. -/
structure Legible (stop : String → Bool) (function : FoundFunction) : Prop where
  framed : Framed stop function
  lines : ∀ line ∈ function.text, Text.IsLine line

end Recovery
end CommandSet
