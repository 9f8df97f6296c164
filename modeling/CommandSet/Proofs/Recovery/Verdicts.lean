import CommandSet.Proofs.Recovery.Acceptance

/-!
# Verdicts

Whether a source is accepted, and which error is reported if it is not, can be read off its
markers and a count of its braces.  The markers of the first two sections are looked for first,
then the lines behind them are searched for a brace that closes nothing, for the marker of the
public section outside of all braces, and at last for a brace that is never closed.

Main definitions:

- {lit}`excess`: opened less closed braces of the code of lines.
- {lit}`NeverFalls`, {lit}`FallsOn`: lines that never close more than they open, and the line
  on which others first do.
- {lit}`StartsPublic`: lines with a marker of the public section outside of braces.
- {lit}`LastOpens`: the last line on which the count leaves zero.
- {lit}`Verdict`: what is reported of lines.

Main results:

- Theorem {lit}`scanBoth_reaches`: the state in which lines leave the scan of two sections.
- Theorem {lit}`recover_verdict_iff`: recovery reports exactly this verdict.
-/

namespace CommandSet
namespace Recovery

/-! ## Markers and braces -/

/-- The first marker of a section stands in front of {lit}`rest`. -/
def BehindFirst (marker : Marker) (lines rest : List SourceLine) : Prop :=
  ∃ front line, lines = front ++ line :: rest ∧ (∀ l ∈ front, marker.isOn l.text = false) ∧
    marker.isOn line.text = true

/-- The code of lines, their comments cut. -/
def codeIn (lines : List SourceLine) : List Char :=
  codeOf (lines.map (·.text))

/-- Opened less closed braces of the code of lines. -/
def excess (lines : List SourceLine) : Int :=
  netBraces (codeIn lines)

/-- Lines no beginning of whose code closes more than it opens. -/
def NeverFalls (lines : List SourceLine) : Prop :=
  ∀ p, p <+: codeIn lines → 0 ≤ netBraces p

/-- The line on which lines first close more than they opened. -/
def FallsOn (lines : List SourceLine) (line : SourceLine) : Prop :=
  ∃ above below, lines = above ++ line :: below ∧ NeverFalls above ∧ ¬NeverFalls (above ++ [line])

/-- Lines with a marker of the public section outside of braces. -/
def StartsPublic (lines : List SourceLine) : Prop :=
  ∃ above line below, lines = above ++ line :: below ∧ excess above = 0 ∧
    Marker.publicFunctions.isOn line.text = true

/-- A line on which the count of braces leaves zero. -/
def Opens (above : List SourceLine) (line : SourceLine) : Prop :=
  excess above = 0 ∧ 0 < excess (above ++ [line])

/-- The last line on which the count of braces leaves zero. -/
def LastOpens (lines : List SourceLine) (line : SourceLine) : Prop :=
  ∃ above below, lines = above ++ line :: below ∧ Opens above line ∧
    ∀ between other after, below = between ++ other :: after →
      ¬Opens (above ++ line :: between) other

/-- What is reported of the lines of a source, told from markers and braces alone. -/
inductive Verdict (lines : List SourceLine) : Except RecoveryError Unit → Prop where
  | noDefinitions (hnone : ∀ line ∈ lines, Marker.definitions.isOn line.text = false) :
      Verdict lines (.error (.missingSection .definitions))
  | noPrivateFunctions {definitions : List SourceLine}
      (hdefinitions : BehindFirst .definitions lines definitions)
      (hnone : ∀ line ∈ definitions, Marker.privateFunctions.isOn line.text = false) :
      Verdict lines (.error (.missingSection .privateFunctions))
  | falls {definitions rest : List SourceLine} {line : SourceLine}
      (hdefinitions : BehindFirst .definitions lines definitions)
      (hrest : BehindFirst .privateFunctions definitions rest) (hfalls : FallsOn rest line) :
      Verdict lines (.error (.negativeBraceDepth line.number))
  | noPublicFunctions {definitions rest : List SourceLine}
      (hdefinitions : BehindFirst .definitions lines definitions)
      (hrest : BehindFirst .privateFunctions definitions rest) (hnever : NeverFalls rest)
      (hnone : ¬StartsPublic rest) :
      Verdict lines (.error (.missingSection .publicFunctions))
  | unterminated {definitions rest : List SourceLine} {line : SourceLine}
      (hdefinitions : BehindFirst .definitions lines definitions)
      (hrest : BehindFirst .privateFunctions definitions rest) (hnever : NeverFalls rest)
      (hstarts : StartsPublic rest) (hopen : 0 < excess rest) (hlast : LastOpens rest line) :
      Verdict lines (.error (.unterminatedFunction line.number))
  | accepted {definitions rest : List SourceLine}
      (hdefinitions : BehindFirst .definitions lines definitions)
      (hrest : BehindFirst .privateFunctions definitions rest) (hnever : NeverFalls rest)
      (hstarts : StartsPublic rest) (hclosed : ¬0 < excess rest) :
      Verdict lines (.ok ())

/-! ## Counting -/

theorem codeIn_append (first second : List SourceLine) :
    codeIn (first ++ second) = codeIn first ++ codeIn second := by
  rw [codeIn, List.map_append, codeOf_append, codeIn, codeIn]

theorem excess_append (first second : List SourceLine) :
    excess (first ++ second) = excess first + excess second := by
  rw [excess, codeIn_append, netBraces_append, excess, excess]

theorem NeverFalls.nil : NeverFalls [] := by
  intro p hp
  rw [List.prefix_nil.mp hp]
  exact Int.le_refl 0

theorem NeverFalls.of_append {first second : List SourceLine} (h : NeverFalls (first ++ second)) :
    NeverFalls first := by
  intro p hp
  apply h p
  rw [codeIn_append]
  exact hp.trans (List.prefix_append _ _)

/-- Lines behind others whose braces close never fall either. -/
theorem NeverFalls.behind {first second : List SourceLine} (h : NeverFalls (first ++ second))
    (hfirst : excess first = 0) : NeverFalls second := by
  intro p hp
  have hwhole := h (codeIn first ++ p) (by
    rw [codeIn_append]
    exact (List.prefix_append_right_inj _).mpr hp)
  rw [netBraces_append] at hwhole
  unfold excess at hfirst
  omega

/-- Lines that never fall lead from depth zero as far as their count says. -/
theorem leads_iff {lines : List SourceLine} {depth : Nat} :
    Leads 0 depth (lines.map (·.text)) ↔ NeverFalls lines ∧ excess lines = depth := by
  have hcount (code : List Char) :
      0 ≤ netBraces code ↔ code.count '}' ≤ 0 + code.count '{' := by
    unfold netBraces
    omega
  rw [Leads, depthAfter_eq_some_iff]
  unfold NeverFalls
  simp only [hcount]
  refine and_congr_right fun _ => ?_
  unfold excess codeIn netBraces
  omega

theorem NeverFalls.exists_leads {lines : List SourceLine} (h : NeverFalls lines) :
    ∃ depth : Nat, excess lines = depth ∧ Leads 0 depth (lines.map (·.text)) := by
  have hdepth : excess lines = (excess lines).toNat :=
    (Int.toNat_of_nonneg (h _ List.prefix_rfl)).symm
  exact ⟨_, hdepth, leads_iff.mpr ⟨h, hdepth⟩⟩

/-- A line leads from the count above it to the count below it, unless lines fall on it. -/
theorem NeverFalls.depthAfter_line {above : List SourceLine} {line : SourceLine} {depth : Nat}
    (h : NeverFalls above) (hdepth : excess above = depth) :
    (NeverFalls (above ++ [line]) → ∃ next : Nat, excess (above ++ [line]) = next ∧
        depthAfter depth (codePart line.text) = some next) ∧
      (¬NeverFalls (above ++ [line]) → depthAfter depth (codePart line.text) = none) := by
  have habove := leads_iff.mpr ⟨h, hdepth⟩
  have hiff (next : Nat) : Leads 0 next ((above ++ [line]).map (·.text)) ↔
      depthAfter depth (codePart line.text) = some next := by
    rw [List.map_append, leads_append_iff]
    constructor
    · rintro ⟨middle, hmiddle, hline⟩
      obtain rfl := habove.unique hmiddle
      rcases leads_cons_iff.mp hline with ⟨after, hafter, hnil⟩
      obtain rfl : after = next := Option.some.inj hnil
      exact hafter
    · intro hline
      exact ⟨depth, habove, leads_cons_iff.mpr ⟨next, hline, rfl⟩⟩
  constructor
  · intro hnever
    rcases hnever.exists_leads with ⟨next, hnext, hleads⟩
    exact ⟨next, hnext, (hiff next).mp hleads⟩
  · intro hfalls
    cases hline : depthAfter depth (codePart line.text) with
    | none => rfl
    | some next => exact absurd (leads_iff.mp ((hiff next).mpr hline)).1 hfalls

/-! ## The first and the last line of a kind -/

/-- A split of a list is one of all but its last element, or in front of that. -/
theorem exists_split_concat_iff {α : Type} {P : List α → α → Prop} {init : List α} {last : α} :
    (∃ above x below, init ++ [last] = above ++ x :: below ∧ P above x) ↔
      (∃ above x below, init = above ++ x :: below ∧ P above x) ∨ P init last := by
  constructor
  · rintro ⟨above, x, below, hsplit, hx⟩
    rcases List.eq_nil_or_concat below with rfl | ⟨below, y, rfl⟩
    · rcases List.append_inj' hsplit rfl with ⟨rfl, hlast⟩
      rw [List.singleton_inj.mp hlast]
      exact .inr hx
    · rw [List.concat_eq_append, ← List.cons_append, ← List.append_assoc] at hsplit
      exact .inl ⟨above, x, below, (List.append_inj' hsplit rfl).1, hx⟩
  · rintro (⟨above, x, below, rfl, hx⟩ | hlast)
    · exact ⟨above, x, below ++ [last], by simp, hx⟩
    · exact ⟨init, last, [], rfl, hlast⟩

theorem startsPublic_concat_iff {lines : List SourceLine} {line : SourceLine} :
    StartsPublic (lines ++ [line]) ↔
      StartsPublic lines ∨ excess lines = 0 ∧ Marker.publicFunctions.isOn line.text = true :=
  exists_split_concat_iff (P := fun above line =>
    excess above = 0 ∧ Marker.publicFunctions.isOn line.text = true)

/-- Lines that fall do so on some line first. -/
theorem exists_fallsOn {lines : List SourceLine} (h : ¬NeverFalls lines) :
    ∃ line, FallsOn lines line := by
  induction lines using List.reverseRecOn with
  | nil => exact absurd NeverFalls.nil h
  | append_singleton lines last ih =>
      by_cases hlines : NeverFalls lines
      · exact ⟨last, lines, [], rfl, hlines, h⟩
      · rcases ih hlines with ⟨line, above, below, rfl, habove, hfalls⟩
        exact ⟨line, above, below ++ [last], by simp, habove, hfalls⟩

/-- Lines that open more than they close have a last line on which the count leaves zero. -/
theorem exists_lastOpens {lines : List SourceLine} (hnever : NeverFalls lines)
    (hopen : 0 < excess lines) : ∃ line, LastOpens lines line := by
  induction lines using List.reverseRecOn with
  | nil => exact absurd hopen (Int.lt_irrefl 0)
  | append_singleton lines last ih =>
      by_cases hzero : excess lines = 0
      · exact ⟨last, lines, [], rfl, ⟨hzero, hopen⟩, fun between other after h => by simp at h⟩
      · have hpositive : 0 < excess lines := by
          have hle := hnever.of_append _ List.prefix_rfl
          unfold excess at hzero ⊢
          omega
        rcases ih hnever.of_append hpositive with ⟨line, above, below, rfl, hline, hlast⟩
        refine ⟨line, above, below ++ [last], by simp, hline, ?_⟩
        intro between other after hsplit hopens
        rcases (exists_split_concat_iff (P := fun between other =>
            Opens (above ++ line :: between) other)).mp ⟨between, other, after, hsplit, hopens⟩
          with ⟨between, other, after, hbelow, hother⟩ | hother
        · exact hlast between other after hbelow hother
        · exact hzero hother.1

/-- Behind the last line on which the count leaves zero it does not come back. -/
theorem LastOpens.positive {above below : List SourceLine} {line : SourceLine}
    (hnever : NeverFalls (above ++ line :: below)) (hopen : 0 < excess (above ++ line :: below))
    (hlast : ∀ between other after, below = between ++ other :: after →
      ¬Opens (above ++ line :: between) other) {between after : List SourceLine}
    (hbelow : below = between ++ after) : 0 < excess (above ++ line :: between) := by
  have hsplit : above ++ line :: below = (above ++ line :: between) ++ after := by
    rw [hbelow]
    simp
  rw [hsplit] at hnever hopen
  have hle := hnever.of_append _ List.prefix_rfl
  by_contra hnot
  have hzero : excess (above ++ line :: between) = 0 := by
    unfold excess at hnot ⊢
    omega
  -- the lines left open more than they close, so the count leaves zero again on one of them
  have hafter : 0 < excess after := by
    rw [excess_append] at hopen
    omega
  rcases exists_lastOpens (hnever.behind hzero) hafter with ⟨other, more, rest, hmore, hother, -⟩
  refine hlast (between ++ more) other rest (by rw [hbelow, hmore, List.append_assoc]) ?_
  have hassoc : above ++ line :: (between ++ more) = (above ++ line :: between) ++ more := by
    simp
  rcases hother with ⟨hclosed, hopened⟩
  rw [excess_append] at hopened
  rw [hassoc]
  constructor
  · rw [excess_append]
    omega
  · rw [excess_append, excess_append]
    omega

/-- Lines behind which the count stays above zero are lines inside of a function. -/
theorem exists_descends {below : List SourceLine} : ∀ {above : List SourceLine},
    NeverFalls (above ++ below) →
      (∀ between after, below = between ++ after → 0 < excess (above ++ between)) →
        ∃ depth last : Nat, excess above = depth ∧ last ≠ 0 ∧
          Descends depth (below.map (·.text)) last := by
  induction below with
  | nil =>
      intro above hnever hpositive
      rw [List.append_nil] at hnever
      rcases hnever.exists_leads with ⟨depth, hdepth, -⟩
      have habove := hpositive [] [] rfl
      rw [List.append_nil] at habove
      exact ⟨depth, depth, hdepth, by omega, .nil depth⟩
  | cons line below ih =>
      intro above hnever hpositive
      have habove := hpositive [] (line :: below) rfl
      rw [List.append_nil] at habove
      have hassoc : above ++ line :: below = (above ++ [line]) ++ below := by
        simp
      rw [hassoc] at hnever
      rcases hnever.of_append.of_append.exists_leads with ⟨depth, hdepth, -⟩
      rcases (hnever.of_append.of_append.depthAfter_line hdepth).1 hnever.of_append
        with ⟨next, hnext, hline⟩
      have hrest : ∀ between after, below = between ++ after →
          0 < excess (above ++ [line] ++ between) := by
        intro between after hbelow
        have hwhole := hpositive (line :: between) after (by rw [hbelow]; rfl)
        simpa using hwhole
      rcases ih hnever hrest with ⟨other, last, hother, hlast, hdescends⟩
      obtain rfl : next = other := by omega
      exact ⟨depth, last, hdepth, hlast, .cons (by omega) hline hdescends⟩

/-! ## Scanning -/

/-- A line that closes a brace that was never opened is an error. -/
theorem Scanner.feed_of_none {scanner : Scanner} {line : SourceLine}
    (h : depthAfter scanner.depth (codePart line.text) = none) :
    scanner.feed line = .error (.negativeBraceDepth line.number) := by
  rw [Scanner.feed, walkBraces_eq, h]
  rfl

/-- A line that leaves depth zero opens a function. -/
theorem Scanner.feed_of_opens {scanner : Scanner} {line : SourceLine} {depth : Nat}
    (hcurrent : scanner.current = none) (hline : depthAfter 0 (codePart line.text) = some depth)
    (hdepth : depth ≠ 0) :
    ∃ function, scanner.feed line = .ok (⟨[], some ⟨line.number, depth, function⟩⟩, none) := by
  have hopen : (codePart line.text).contains '{' = true := by
    rw [List.contains_iff_mem]
    by_contra hopen
    rw [depthAfter_of_braceless hopen (closes_of_not_opens hopen hline)] at hline
    exact hdepth (Option.some.inj hline).symm
  have hzero : scanner.depth = 0 := by
    simp [Scanner.depth, hcurrent]
  refine ⟨FoundFunction.start scanner.pending line.text, ?_⟩
  rw [Scanner.feed, walkBraces_eq, hzero, hline, hcurrent, Option.map_some, hopen]
  simp [Scanner.close, hdepth]

/-- Whether the lines of the public section can be scanned. -/
def scanOne (scanner : Scanner) (lines : List SourceLine) : Except RecoveryError Unit := do
  let _ ← scanPublic scanner lines
  pure ()

/-- Whether the lines of the private section and of the public one can be scanned. -/
def scanBoth (scanner : Scanner) (lines : List SourceLine) : Except RecoveryError Unit := do
  let (_, _, rest) ← scanPrivate scanner lines
  scanOne Scanner.initial rest

theorem scanOne_cons (scanner : Scanner) (line : SourceLine) (lines : List SourceLine) :
    scanOne scanner (line :: lines) = scanner.feed line >>= fun state => scanOne state.1 lines := by
  unfold scanOne
  rw [scanPublic]
  cases scanner.feed line with
  | error error => rfl
  | ok state =>
      simp only [bind, Except.bind]
      cases scanPublic state.1 lines <;> rfl

theorem scanBoth_cons_marker {scanner : Scanner} {line : SourceLine}
    (hcurrent : scanner.current = none) (hline : Marker.publicFunctions.isOn line.text = true)
    (lines : List SourceLine) :
    scanBoth scanner (line :: lines) = scanOne Scanner.initial lines := by
  rw [scanBoth, scanPrivate, hcurrent, hline]
  rfl

theorem scanBoth_cons {scanner : Scanner} {line : SourceLine}
    (h : ¬(scanner.current = none ∧ Marker.publicFunctions.isOn line.text = true))
    (lines : List SourceLine) :
    scanBoth scanner (line :: lines) =
      scanner.feed line >>= fun state => scanBoth state.1 lines := by
  rw [← Option.isNone_iff_eq_none, ← Bool.and_eq_true] at h
  rw [scanBoth, scanPrivate, if_neg h]
  cases scanner.feed line with
  | error error => rfl
  | ok state =>
      simp only [bind, Except.bind, scanBoth]
      cases scanPrivate state.1 lines <;> rfl

/-- Lines that never fall are left in a sound state at the depth of their count.  By then the
public section has begun if there was a marker of it outside of braces, else the private one
goes on. -/
theorem scanBoth_reaches {lines : List SourceLine} (hnever : NeverFalls lines) :
    ∃ next : Scanner, next.Sound (fun _ => false) ∧ excess lines = next.depth ∧
      (StartsPublic lines ∧ (∀ back, scanBoth Scanner.initial (lines ++ back) = scanOne next back) ∨
        ¬StartsPublic lines ∧
          ∀ back, scanBoth Scanner.initial (lines ++ back) = scanBoth next back) := by
  induction lines using List.reverseRecOn with
  | nil =>
      refine ⟨Scanner.initial, Scanner.initial_sound, rfl, .inr ⟨?_, fun back => rfl⟩⟩
      rintro ⟨above, line, below, hsplit, -⟩
      simp at hsplit
  | append_singleton lines line ih =>
      rcases ih hnever.of_append with ⟨scanner, hsound, hdepth, hscan⟩
      rcases (hnever.of_append.depthAfter_line hdepth).1 hnever with ⟨after, hafter, hline⟩
      rcases Scanner.exists_feed hline with ⟨next, found, hfeed, rfl⟩
      have hcons (back : List SourceLine) : lines ++ [line] ++ back = lines ++ line :: back := by
        simp
      rcases hscan with ⟨hstarts, hscan⟩ | ⟨hnone, hscan⟩
      · refine ⟨next, hsound.feed hfeed, hafter, .inl ⟨?_, fun back => ?_⟩⟩
        · exact startsPublic_concat_iff.mpr (.inl hstarts)
        · rw [hcons, hscan, scanOne_cons, hfeed]
          rfl
      · have hzero : scanner.current = none ↔ excess lines = 0 := by
          rw [← hsound.depth_eq_zero_iff, hdepth, Int.natCast_eq_zero]
        by_cases hmarker : scanner.current = none ∧ Marker.publicFunctions.isOn line.text = true
        · -- the marker has no code, so the public section begins at depth zero
          have hsame := depthAfter_marker hmarker.2 scanner.depth
          rw [hline, hsound.depth_eq_zero_iff.mpr hmarker.1] at hsame
          rw [Option.some.inj hsame] at hafter
          refine ⟨Scanner.initial, Scanner.initial_sound, hafter, .inl ⟨?_, fun back => ?_⟩⟩
          · exact startsPublic_concat_iff.mpr (.inr ⟨hzero.mp hmarker.1, hmarker.2⟩)
          · rw [hcons, hscan, scanBoth_cons_marker hmarker.1 hmarker.2]
        · refine ⟨next, hsound.feed hfeed, hafter, .inr ⟨?_, fun back => ?_⟩⟩
          · rw [startsPublic_concat_iff, ← hzero]
            exact not_or.mpr ⟨hnone, hmarker⟩
          · rw [hcons, hscan, scanBoth_cons hmarker, hfeed]
            rfl

theorem Descends.ne_zero {depth last : Nat} {lines : List String} (h : Descends depth lines last)
    (hlast : last ≠ 0) : depth ≠ 0 := by
  cases h with
  | nil => exact hlast
  | cons hdepth => exact hdepth

/-- A function that stays open to the end of the text is reported by its first line. -/
theorem scanOne_of_descends {since depth last : Nat} {lines : List SourceLine}
    (h : Descends depth (lines.map (·.text)) last) (hlast : last ≠ 0) (function : FoundFunction) :
    scanOne ⟨[], some ⟨since, depth, function⟩⟩ lines = .error (.unterminatedFunction since) := by
  induction lines generalizing depth function with
  | nil => rfl
  | cons line lines ih =>
      cases h with
      | @cons _ next _ _ _ hdepth hline hlines =>
          have hfeed : Scanner.feed ⟨[], some ⟨since, depth, function⟩⟩ line =
              .ok (Scanner.close next since
                { function with body := function.body ++ [line.text] }) := by
            have hfrom : Scanner.depth ⟨[], some ⟨since, depth, function⟩⟩ = depth := rfl
            simp [Scanner.feed, hfrom, walkBraces_eq, hline]
          rw [scanOne_cons, hfeed, Scanner.close, if_neg (hlines.ne_zero hlast)]
          exact ih hlines _

/-! ## Verdicts of sections -/

/-- Lines that fall are reported with the line on which they first do. -/
theorem scanBoth_of_fallsOn {lines : List SourceLine} {line : SourceLine} (h : FallsOn lines line) :
    scanBoth Scanner.initial lines = .error (.negativeBraceDepth line.number) := by
  rcases h with ⟨above, below, rfl, habove, hfalls⟩
  rcases scanBoth_reaches habove with ⟨scanner, -, hdepth, hscan⟩
  have hline := (habove.depthAfter_line hdepth).2 hfalls
  have hfeed := Scanner.feed_of_none hline
  have hmarker : ¬(scanner.current = none ∧ Marker.publicFunctions.isOn line.text = true) := by
    rintro ⟨-, hmarker⟩
    rw [depthAfter_marker hmarker] at hline
    cases hline
  rcases hscan with ⟨-, hscan⟩ | ⟨-, hscan⟩
  · rw [hscan, scanOne_cons, hfeed]
    rfl
  · rw [hscan, scanBoth_cons hmarker, hfeed]
    rfl

/-- Without a marker outside of braces the public section does not start. -/
theorem scanBoth_of_not_startsPublic {lines : List SourceLine} (hnever : NeverFalls lines)
    (hnone : ¬StartsPublic lines) :
    scanBoth Scanner.initial lines = .error (.missingSection .publicFunctions) := by
  rcases scanBoth_reaches hnever with ⟨scanner, -, -, ⟨hstarts, -⟩ | ⟨-, hscan⟩⟩
  · exact absurd hstarts hnone
  · have hend := hscan []
    rw [List.append_nil] at hend
    rw [hend]
    rfl

/-- A marker that starts the public section stands above the line of a function that is never
closed. -/
theorem startsPublic_above {above below : List SourceLine} {line : SourceLine}
    (hstarts : StartsPublic (above ++ line :: below)) (hline : Opens above line)
    (hpositive : ∀ between after, below = between ++ after →
      0 < excess (above ++ line :: between)) :
    StartsPublic above := by
  induction below using List.reverseRecOn with
  | nil =>
      rcases startsPublic_concat_iff.mp hstarts with habove | ⟨hzero, hmarker⟩
      · exact habove
      · have hbraces : netBraces (codePart line.text) = 0 := by
          have hsame := (depthAfter_eq_some_iff.mp (depthAfter_marker hmarker 0)).2
          unfold netBraces
          omega
        have hopens := hline.2
        rw [excess_append, hzero] at hopens
        have hexcess : excess [line] = netBraces (codePart line.text) := by
          simp [excess, codeIn]
        omega
  | append_singleton below last ih =>
      have hassoc : above ++ line :: (below ++ [last]) = (above ++ line :: below) ++ [last] := by
        simp
      rw [hassoc] at hstarts
      rcases startsPublic_concat_iff.mp hstarts with hstarts | ⟨hzero, -⟩
      · apply ih hstarts
        intro between after hbelow
        exact hpositive between (after ++ [last]) (by rw [hbelow, List.append_assoc])
      · have hopen := hpositive below [last] rfl
        omega

/-- Lines that leave braces open are reported with the line that opens them last. -/
theorem scanBoth_of_lastOpens {lines : List SourceLine} {line : SourceLine}
    (hnever : NeverFalls lines) (hstarts : StartsPublic lines) (hopen : 0 < excess lines)
    (hlast : LastOpens lines line) :
    scanBoth Scanner.initial lines = .error (.unterminatedFunction line.number) := by
  rcases hlast with ⟨above, below, rfl, hline, hlast⟩
  have hpositive : ∀ between after, below = between ++ after →
      0 < excess (above ++ line :: between) :=
    fun between after hbelow => LastOpens.positive hnever hopen hlast hbelow
  have habove := startsPublic_above hstarts hline hpositive
  have hassoc : above ++ line :: below = (above ++ [line]) ++ below := by
    simp
  rw [hassoc] at hnever
  rcases scanBoth_reaches hnever.of_append.of_append with
    ⟨scanner, hsound, hdepth, ⟨-, hscan⟩ | ⟨hnone, -⟩⟩
  · -- the line opens a function, the lines below stay inside of it
    have hzero : scanner.depth = 0 := by
      have habove := hline.1
      omega
    rcases (hnever.of_append.of_append.depthAfter_line hdepth).1 hnever.of_append
      with ⟨depth, hafter, hfeed⟩
    have hbelow : ∀ between after, below = between ++ after →
        0 < excess (above ++ [line] ++ between) := by
      intro between after hsplit
      have hwhole := hpositive between after hsplit
      simpa using hwhole
    rcases exists_descends hnever hbelow with ⟨other, last, hother, hne, hdescends⟩
    obtain rfl : depth = other := by omega
    rw [hzero] at hfeed
    rcases Scanner.feed_of_opens (hsound.depth_eq_zero_iff.mp hzero) hfeed (hdescends.ne_zero hne)
      with ⟨function, hfeed⟩
    rw [hscan, scanOne_cons, hfeed]
    exact scanOne_of_descends hdescends hne function
  · exact absurd habove hnone

/-- Lines that start the public section and close all braces are scanned. -/
theorem scanBoth_of_closed {lines : List SourceLine} (hnever : NeverFalls lines)
    (hstarts : StartsPublic lines) (hclosed : ¬0 < excess lines) :
    scanBoth Scanner.initial lines = .ok () := by
  rcases scanBoth_reaches hnever with ⟨scanner, hsound, hdepth, ⟨-, hscan⟩ | ⟨hnone, -⟩⟩
  · have hcurrent : scanner.current = none := by
      apply hsound.depth_eq_zero_iff.mp
      omega
    have hend := hscan []
    rw [List.append_nil] at hend
    rw [hend, scanOne, scanPublic, hcurrent]
    rfl
  · exact absurd hstarts hnone

/-! ## Verdicts of sources -/

theorem takeUntil_of_none {marker : Marker} {lines : List SourceLine}
    (h : ∀ line ∈ lines, marker.isOn line.text = false) :
    takeUntil marker lines = .error (.missingSection marker) := by
  induction lines with
  | nil => rfl
  | cons line lines ih =>
      rw [List.forall_mem_cons] at h
      rw [takeUntil, h.1, ih h.2]
      rfl

theorem exists_takeUntil_of_behindFirst {marker : Marker} {lines rest : List SourceLine}
    (h : BehindFirst marker lines rest) : ∃ front, takeUntil marker lines = .ok (front, rest) := by
  rcases h with ⟨above, line, hlines, habove, hline⟩
  exact ⟨above.map (·.text), takeUntil_eq_ok_iff.mpr ⟨above, line, hlines, hline, habove, rfl⟩⟩

/-- A marker is missing, or there is a first one. -/
theorem exists_behindFirst {marker : Marker} {lines : List SourceLine}
    (h : ¬∀ line ∈ lines, marker.isOn line.text = false) :
    ∃ rest, BehindFirst marker lines rest := by
  induction lines with
  | nil => exact absurd (fun line hline => absurd hline List.not_mem_nil) h
  | cons line lines ih =>
      by_cases hline : marker.isOn line.text = true
      · exact ⟨lines, [], line, rfl, by simp, hline⟩
      · rw [List.forall_mem_cons, Bool.eq_false_iff, not_and] at h
        rcases ih (h hline) with ⟨rest, front, first, rfl, hfront, hfirst⟩
        refine ⟨rest, line :: front, first, rfl, ?_, hfirst⟩
        exact List.forall_mem_cons.mpr ⟨Bool.eq_false_iff.mpr hline, hfront⟩

/-- Recovery fails or succeeds as the scan of the sections behind the first two markers. -/
theorem map_recoverLines_of_behindFirst {protocol : String} {commands lines : List String}
    {definitions rest : List SourceLine}
    (hdefinitions : BehindFirst .definitions (numberLines 1 lines) definitions)
    (hrest : BehindFirst .privateFunctions definitions rest) :
    (recoverLines protocol commands lines).map (fun _ => ()) = scanBoth Scanner.initial rest := by
  rcases exists_takeUntil_of_behindFirst hdefinitions with ⟨includes, hincludes⟩
  rcases exists_takeUntil_of_behindFirst hrest with ⟨between, hbetween⟩
  simp only [recoverLines, scanBoth, scanOne, bind, Except.bind, hincludes, hbetween]
  cases scanPrivate Scanner.initial rest with
  | error error => rfl
  | ok privates =>
      simp only
      cases scanPublic Scanner.initial privates.2.2 <;> rfl

/-- Recovery reports every verdict. -/
theorem Verdict.map_recoverLines {protocol : String} {commands lines : List String}
    {verdict : Except RecoveryError Unit} (h : Verdict (numberLines 1 lines) verdict) :
    (recoverLines protocol commands lines).map (fun _ => ()) = verdict := by
  cases h with
  | noDefinitions hnone =>
      rw [recoverLines, takeUntil_of_none hnone]
      rfl
  | noPrivateFunctions hdefinitions hnone =>
      rcases exists_takeUntil_of_behindFirst hdefinitions with ⟨includes, hincludes⟩
      simp only [recoverLines, bind, Except.bind, hincludes, takeUntil_of_none hnone]
      rfl
  | falls hdefinitions hrest hfalls =>
      rw [map_recoverLines_of_behindFirst hdefinitions hrest]
      exact scanBoth_of_fallsOn hfalls
  | noPublicFunctions hdefinitions hrest hnever hnone =>
      rw [map_recoverLines_of_behindFirst hdefinitions hrest]
      exact scanBoth_of_not_startsPublic hnever hnone
  | unterminated hdefinitions hrest hnever hstarts hopen hlast =>
      rw [map_recoverLines_of_behindFirst hdefinitions hrest]
      exact scanBoth_of_lastOpens hnever hstarts hopen hlast
  | accepted hdefinitions hrest hnever hstarts hclosed =>
      rw [map_recoverLines_of_behindFirst hdefinitions hrest]
      exact scanBoth_of_closed hnever hstarts hclosed

/-- There is a verdict on any lines. -/
theorem exists_verdict (lines : List SourceLine) : ∃ verdict, Verdict lines verdict := by
  by_cases hdefinitions : ∀ line ∈ lines, Marker.definitions.isOn line.text = false
  · exact ⟨_, .noDefinitions hdefinitions⟩
  rcases exists_behindFirst hdefinitions with ⟨definitions, hdefinitions⟩
  by_cases hprivates : ∀ line ∈ definitions, Marker.privateFunctions.isOn line.text = false
  · exact ⟨_, .noPrivateFunctions hdefinitions hprivates⟩
  rcases exists_behindFirst hprivates with ⟨rest, hrest⟩
  by_cases hnever : NeverFalls rest
  · by_cases hstarts : StartsPublic rest
    · by_cases hopen : 0 < excess rest
      · rcases exists_lastOpens hnever hopen with ⟨line, hlast⟩
        exact ⟨_, .unterminated hdefinitions hrest hnever hstarts hopen hlast⟩
      · exact ⟨_, .accepted hdefinitions hrest hnever hstarts hopen⟩
    · exact ⟨_, .noPublicFunctions hdefinitions hrest hnever hstarts⟩
  · rcases exists_fallsOn hnever with ⟨line, hfalls⟩
    exact ⟨_, .falls hdefinitions hrest hfalls⟩

/-- Recovery of a source, for any protocol and any commands, fails or succeeds exactly as the
markers and the braces of its lines say. -/
theorem recover_verdict_iff (protocol : String) (commands : List String) (source : String)
    (verdict : Except RecoveryError Unit) :
    (recover protocol commands source).map (fun _ => ()) = verdict ↔
      Verdict (numberLines 1 (Text.lines source)) verdict := by
  rw [recover]
  constructor
  · intro hreported
    rcases exists_verdict (numberLines 1 (Text.lines source)) with ⟨other, hother⟩
    obtain rfl : other = verdict := hother.map_recoverLines.symm.trans hreported
    exact hother
  · intro hverdict
    exact hverdict.map_recoverLines

end Recovery
end CommandSet
