import CommandSet.Proofs.Schema.Written
import CommandSet.Schema.Grammar

/-!
# What readers read

A reader reads a value off the beginning of a text and leaves the rest, whatever the
position and the record of failed rules are.  Readers of tokens are maximal: they need
layout behind the token, and layout itself ends where a token starts.

Main definitions:

- {lit}`Reads`, {lit}`Refuses`: what a reader makes of a text.
- {lit}`Loose`, {lit}`Solid`: texts that start with layout, and texts that do not.
- {lit}`ReadsToken`: a reader that reads a token in front of layout.
- {lit}`ReadsUpTo`: a reader that reads up to layout behind which the rest starts.

Main results:

- Theorem {lit}`reads_layout`: layout is skipped up to the next token.
- Theorems {lit}`ReadsToken.upTo`, {lit}`ReadsUpTo.bind`: a token, the gap behind it, and
  what follows.
-/

namespace CommandSet
namespace Schema

variable {α β : Type}

/-! ## Readers and texts -/

/-- The reader reads {lit}`a` off the text and leaves {lit}`rest`. -/
def Reads (r : Reader α) (text : List Char) (a : α) (rest : List Char) : Prop :=
  ∀ offset attempts, ∃ offset' attempts',
    r ⟨offset, text⟩ attempts = (some (a, ⟨offset', rest⟩), attempts')

/-- The reader reads nothing off the text. -/
def Refuses (r : Reader α) (text : List Char) : Prop :=
  ∀ offset attempts, ∃ attempts', r ⟨offset, text⟩ attempts = (none, attempts')

theorem reads_pure (a : α) (text : List Char) : Reads (pure a) text a text :=
  fun offset attempts => ⟨offset, attempts, rfl⟩

/-- What a reader does first is all that the rest depends on. -/
theorem bind_eq {r : Reader α} {f : α → Reader β} {cursor : Cursor} {attempts : Attempts}
    {result : Option (α × Cursor) × Attempts} (h : r cursor attempts = result) :
    (r >>= f) cursor attempts = (((fun _ _ => result) : Reader α) >>= f) cursor attempts := by
  subst h
  rfl

theorem Reads.bind {r : Reader α} {f : α → Reader β} {text mid rest : List Char} {a : α} {b : β}
    (hr : Reads r text a mid) (hf : Reads (f a) mid b rest) : Reads (r >>= f) text b rest := by
  intro offset attempts
  obtain ⟨offset₁, attempts₁, hfirst⟩ := hr offset attempts
  obtain ⟨offset₂, attempts₂, hsecond⟩ := hf offset₁ attempts₁
  exact ⟨offset₂, attempts₂, (bind_eq hfirst).trans hsecond⟩

theorem Refuses.bind {r : Reader α} {f : α → Reader β} {text : List Char} (hr : Refuses r text) :
    Refuses (r >>= f) text := by
  intro offset attempts
  obtain ⟨attempts₁, hfirst⟩ := hr offset attempts
  exact ⟨attempts₁, bind_eq hfirst⟩

theorem Reads.bind_refuses {r : Reader α} {f : α → Reader β} {text mid : List Char} {a : α}
    (hr : Reads r text a mid) (hf : Refuses (f a) mid) : Refuses (r >>= f) text := by
  intro offset attempts
  obtain ⟨offset₁, attempts₁, hfirst⟩ := hr offset attempts
  obtain ⟨attempts₂, hsecond⟩ := hf offset₁ attempts₁
  exact ⟨attempts₂, (bind_eq hfirst).trans hsecond⟩

theorem Reads.named {r : Reader α} {text rest : List Char} {a : α} (rule : Rule)
    (hr : Reads r text a rest) : Reads (Reader.named rule r) text a rest := by
  intro offset attempts
  obtain ⟨offset₁, attempts₁, hfirst⟩ := hr offset attempts
  exact ⟨offset₁, attempts₁, by simp only [Reader.named, hfirst]⟩

theorem Refuses.named {r : Reader α} {text : List Char} (rule : Rule) (hr : Refuses r text) :
    Refuses (Reader.named rule r) text := by
  intro offset attempts
  obtain ⟨attempts₁, hfirst⟩ := hr offset attempts
  exact ⟨_, by simp only [Reader.named, hfirst]; rfl⟩

theorem Reads.orElse {r : Reader α} {text rest : List Char} {a : α} (s : Reader α)
    (hr : Reads r text a rest) : Reads (Reader.orElse r s) text a rest := by
  intro offset attempts
  obtain ⟨offset₁, attempts₁, hfirst⟩ := hr offset attempts
  exact ⟨offset₁, attempts₁, by simp only [Reader.orElse, hfirst]⟩

theorem Refuses.orElse {r s : Reader α} {text rest : List Char} {a : α} (hr : Refuses r text)
    (hs : Reads s text a rest) : Reads (Reader.orElse r s) text a rest := by
  intro offset attempts
  obtain ⟨attempts₁, hfirst⟩ := hr offset attempts
  obtain ⟨offset₂, attempts₂, hsecond⟩ := hs offset attempts₁
  exact ⟨offset₂, attempts₂, by simp only [Reader.orElse, hfirst, hsecond]⟩

theorem Reads.maybe {r : Reader α} {text rest : List Char} {a : α} (hr : Reads r text a rest) :
    Reads (Reader.maybe r) text (some a) rest := by
  intro offset attempts
  obtain ⟨offset₁, attempts₁, hfirst⟩ := hr offset attempts
  exact ⟨offset₁, attempts₁, by simp only [Reader.maybe, hfirst]⟩

theorem Refuses.maybe {r : Reader α} {text : List Char} (hr : Refuses r text) :
    Reads (Reader.maybe r) text none text := by
  intro offset attempts
  obtain ⟨attempts₁, hfirst⟩ := hr offset attempts
  exact ⟨offset, attempts₁, by simp only [Reader.maybe, hfirst]⟩

theorem reads_plain {take : List Char → Option (α × Nat)} {text rest : List Char} {a : α} {n : Nat}
    (htake : take text = some (a, n)) (hrest : text.drop n = rest) :
    Reads (Reader.plain take) text a rest := by
  intro offset attempts
  exact ⟨offset + n, attempts, by simp only [Reader.plain, htake, Cursor.advance, hrest]⟩

theorem refuses_plain {take : List Char → Option (α × Nat)} {text : List Char}
    (htake : take text = none) : Refuses (Reader.plain take) text := by
  intro offset attempts
  exact ⟨attempts, by simp only [Reader.plain, htake]⟩

theorem reads_word (w : String) (rest : List Char) :
    Reads (Reader.word w) (w.toList ++ rest) () rest :=
  reads_plain (n := w.toList.length) (by simp) List.drop_left

theorem refuses_word {w : String} {text : List Char} (h : ¬w.toList <+: text) :
    Refuses (Reader.word w) text :=
  refuses_plain (by simp [h])

/-! ## Layout -/

/-- Characters with which layout starts. -/
def layoutStarts : List Char :=
  '/' :: layoutBlanks

/-- Texts that do not start with layout. -/
def Solid : List Char → Prop
  | [] => True
  | c :: _ => c ∉ layoutStarts

/-- Texts that start with layout. -/
def Loose : List Char → Prop
  | [] => False
  | c :: _ => c ∈ layoutStarts

theorem Layout.loose_append {layout : List Char} (h : Layout layout) (hne : layout ≠ [])
    (rest : List Char) : Loose (layout ++ rest) := by
  cases h with
  | nil => contradiction
  | blank hc _ => exact List.mem_cons_of_mem _ hc
  | lineComment _ _ => exact List.mem_cons_self
  | blockComment _ _ => exact List.mem_cons_self

theorem Gap.loose_append {gap : List Char} (h : Gap gap) (rest : List Char) : Loose (gap ++ rest) :=
  h.layout.loose_append h.ne_nil rest

/-- A line comment is skipped with its newline. -/
private theorem skipLayout_line (n : Nat) {comment : List Char} (h : '\n' ∉ comment)
    (rest : List Char) :
    skipLayout .line n (comment ++ '\n' :: rest) =
      skipLayout .between (n + comment.length + 1) rest := by
  induction comment generalizing n with
  | nil => simp [skipLayout]
  | cons c comment ih =>
      simp only [List.mem_cons, not_or] at h
      have hstep : skipLayout .line n (c :: (comment ++ '\n' :: rest)) =
          skipLayout .line (n + 1) (comment ++ '\n' :: rest) := by
        rw [skipLayout]
        rintro rfl
        exact h.1 rfl
      rw [List.cons_append, hstep, ih (n + 1) h.2, List.length_cons]
      congr 1
      omega

/-- A block comment is skipped with its end. -/
private theorem skipLayout_block (opened : Cursor) (n : Nat) {comment : List Char}
    (h : ¬['*', '/'] <:+: comment) (rest : List Char) :
    skipLayout (.block opened) n (comment ++ '*' :: '/' :: rest) =
      skipLayout .between (n + comment.length + 2) rest := by
  induction comment generalizing n with
  | nil => simp [skipLayout]
  | cons c comment ih =>
      have hcomment : ¬['*', '/'] <:+: comment := fun hmatch =>
        h (hmatch.trans (List.suffix_cons c comment).isInfix)
      have hstep : skipLayout (.block opened) n (c :: (comment ++ '*' :: '/' :: rest)) =
          skipLayout (.block opened) (n + 1) (comment ++ '*' :: '/' :: rest) := by
        rw [skipLayout]
        rintro tail rfl htail
        cases comment with
        | nil => simp at htail
        | cons d comment =>
            rw [List.cons_append, List.cons.injEq] at htail
            obtain ⟨rfl, -⟩ := htail
            exact h ⟨[], comment, rfl⟩
      rw [List.cons_append, hstep, ih (n + 1) hcomment, List.length_cons]
      congr 1
      omega

/-- Layout is skipped up to the next token. -/
theorem skipLayout_append {layout : List Char} (h : Layout layout) {rest : List Char}
    (hrest : Solid rest) (n : Nat) :
    skipLayout .between n (layout ++ rest) = ⟨n + layout.length, rest⟩ := by
  induction h generalizing n with
  | nil =>
      cases rest with
      | nil => simp [skipLayout]
      | cons c rest =>
          simp only [Solid, layoutStarts, layoutBlanks, List.mem_cons, List.not_mem_nil, or_false,
            not_or] at hrest
          obtain ⟨hslash, hspace, htab, hreturn, hnewline⟩ := hrest
          rw [List.nil_append, skipLayout]
          · simp
          all_goals grind
  | @blank c layout hc _ ih =>
      simp only [layoutBlanks, List.mem_cons, List.not_mem_nil, or_false] at hc
      have hstep : skipLayout .between n (c :: layout ++ rest) =
          skipLayout .between (n + 1) (layout ++ rest) := by
        rcases hc with rfl | rfl | rfl | rfl <;> simp [skipLayout]
      rw [hstep, ih (n + 1), List.length_cons]
      congr 1
      omega
  | @lineComment comment layout hcomment _ ih =>
      have hstep : skipLayout .between n ('/' :: '/' :: (comment ++ '\n' :: layout) ++ rest) =
          skipLayout .line (n + 2) (comment ++ '\n' :: (layout ++ rest)) := by
        simp [skipLayout]
      rw [hstep, skipLayout_line (n + 2) hcomment, ih]
      simp only [List.length_cons, List.length_append]
      congr 1
      omega
  | @blockComment comment layout hcomment _ ih =>
      have hstep : skipLayout .between n ('/' :: '*' :: (comment ++ '*' :: '/' :: layout) ++ rest) =
          skipLayout (.block ⟨n, '/' :: '*' :: (comment ++ '*' :: '/' :: layout) ++ rest⟩) (n + 2)
            (comment ++ '*' :: '/' :: (layout ++ rest)) := by
        simp [skipLayout]
      rw [hstep, skipLayout_block _ (n + 2) hcomment, ih]
      simp only [List.length_cons, List.length_append]
      congr 1
      omega

theorem reads_layout {gap rest : List Char} (h : Layout gap) (hrest : Solid rest) :
    Reads layout (gap ++ rest) () rest := by
  intro offset attempts
  refine ⟨offset + gap.length, attempts, ?_⟩
  simp only [layout, skipLayout_append h hrest]

/-- In front of a token there is no layout to skip. -/
theorem reads_no_layout {rest : List Char} (hrest : Solid rest) : Reads layout rest () rest :=
  reads_layout Layout.nil hrest

/-! ## Tokens -/

/-- The reader reads the token off every text in which layout follows it. -/
def ReadsToken (r : Reader α) (token : Token) (a : α) : Prop :=
  ∀ rest, Loose rest → Reads r (token ++ rest) a rest

/-- The reader reads {lit}`a` off the text, and layout ends the part before
{lit}`next`. -/
def ReadsUpTo (r : Reader α) (text : List Char) (a : α) (next : List Char) : Prop :=
  ∃ mid, Reads r text a mid ∧ Reads layout mid () next

theorem ReadsToken.upTo {r : Reader α} {token : Token} {a : α} {gap next : List Char}
    (hr : ReadsToken r token a) (hgap : Gap gap) (hnext : Solid next) :
    ReadsUpTo r (token ++ (gap ++ next)) a next :=
  ⟨gap ++ next, hr _ (hgap.loose_append next), reads_layout hgap.layout hnext⟩

theorem ReadsUpTo.named {r : Reader α} {text next : List Char} {a : α} (rule : Rule)
    (hr : ReadsUpTo r text a next) : ReadsUpTo (Reader.named rule r) text a next := by
  obtain ⟨mid, hread, hlayout⟩ := hr
  exact ⟨mid, hread.named rule, hlayout⟩

/-- What is read behind the layout. -/
theorem ReadsUpTo.bind {r : Reader α} {f : α → Reader β} {text next rest : List Char} {a : α}
    {b : β} (hr : ReadsUpTo r text a next) (hf : Reads (f a) next b rest) :
    Reads (do let a ← r; layout; f a) text b rest := by
  obtain ⟨mid, hread, hlayout⟩ := hr
  exact hread.bind (hlayout.bind hf)

theorem ReadsUpTo.bind_upTo {r : Reader α} {f : α → Reader β} {text next rest : List Char} {a : α}
    {b : β} (hr : ReadsUpTo r text a next) (hf : ReadsUpTo (f a) next b rest) :
    ReadsUpTo (do let a ← r; layout; f a) text b rest := by
  obtain ⟨mid, hread, hlayout⟩ := hf
  exact ⟨mid, hr.bind hread, hlayout⟩

theorem Reads.bind_upTo {r : Reader α} {f : α → Reader β} {text mid rest : List Char} {a : α}
    {b : β} (hr : Reads r text a mid) (hf : ReadsUpTo (f a) mid b rest) :
    ReadsUpTo (r >>= f) text b rest := by
  obtain ⟨last, hread, hlayout⟩ := hf
  exact ⟨last, hr.bind hread, hlayout⟩

theorem ReadsUpTo.map {r : Reader α} {text next : List Char} {a : α} (g : α → β)
    (hr : ReadsUpTo r text a next) : ReadsUpTo (do let a ← r; pure (g a)) text (g a) next := by
  obtain ⟨mid, hread, hlayout⟩ := hr
  exact ⟨mid, hread.bind (reads_pure (g a) mid), hlayout⟩

theorem readsToken_word (w : String) : ReadsToken (Reader.word w) w.toList () :=
  fun rest _ => reads_word w rest

/-- Tokens that no layout starts with. -/
def SolidToken (token : Token) : Prop :=
  token ≠ [] ∧ Solid token

theorem SolidToken.solid_append {token : Token} (h : SolidToken token) (rest : List Char) :
    Solid (token ++ rest) := by
  obtain ⟨c, tail, rfl⟩ := List.exists_cons_of_ne_nil h.1
  exact h.2

/-- Spread tokens start with their first token. -/
theorem Spread.solid_append {tokens : List Token} {text rest : List Char} (h : Spread tokens text)
    (htokens : ∀ token ∈ tokens, SolidToken token) (hrest : Solid rest) : Solid (text ++ rest) := by
  cases h with
  | nil => exact hrest
  | cons _ _ =>
      rw [List.append_assoc]
      exact (htokens _ List.mem_cons_self).solid_append _

/-- Spread tokens can be cut between two tokens. -/
theorem Spread.append_inv {first second : List Token} {text : List Char}
    (h : Spread (first ++ second) text) :
    ∃ text₁ text₂, Spread first text₁ ∧ Spread second text₂ ∧ text = text₁ ++ text₂ := by
  induction first generalizing text with
  | nil => exact ⟨[], text, .nil, h, rfl⟩
  | cons token first ih =>
      cases h with
      | cons hgap hrest =>
          obtain ⟨text₁, text₂, hfirst, hsecond, rfl⟩ := ih hrest
          exact ⟨_, text₂, .cons hgap hfirst, hsecond, by simp⟩

/-- Every token takes at least the gap behind it. -/
theorem Spread.length_le {tokens : List Token} {text : List Char} (h : Spread tokens text) :
    tokens.length ≤ text.length := by
  induction h with
  | nil => simp
  | cons hgap _ ih =>
      have hpos := List.length_pos_iff.mpr hgap.ne_nil
      simp only [List.length_cons, List.length_append]
      omega

end Schema
end CommandSet
