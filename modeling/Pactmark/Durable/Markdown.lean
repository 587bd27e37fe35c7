import Mathlib

/-!
# Durable — the lines of a Markdown text

A text is a list of code units.  Its lines end at a line feed, a carriage return, or the two
together; a cell of a table ends at a pipe without a backslash before it; a code span is opened by
a run of backticks and closed by the next run of the same length.

* `Flat`: the texts that are one line when a line feed follows.
* `lines_flatMap`, `length_lines_iff`: the lines of texts that end with a line feed each.
* `codeSpans_eq_one_iff`: when there is one code span.
-/

namespace Durable.Markdown

/-! ### Lines -/

/-- The lines of a text, where a carriage return was just before it or not. -/
def linesFrom (afterReturn : Bool) : List Nat → List (List Nat)
  | [] => [[]]
  | u :: text =>
      if u = 10 then
        if afterReturn then linesFrom false text else [] :: linesFrom false text
      else if u = 13 then [] :: linesFrom true text
      else
        match linesFrom false text with
        | [] => [[u]]
        | line :: rest => (u :: line) :: rest

/-- The lines of a text: split at a line feed, a carriage return, or both together. -/
def lines (text : List Nat) : List (List Nat) := linesFrom false text

/-- How many lines end in a text that a line feed follows. -/
def endings (afterReturn : Bool) : List Nat → Nat
  | [] => if afterReturn then 0 else 1
  | u :: text =>
      if u = 10 then (if afterReturn then 0 else 1) + endings false text
      else if u = 13 then 1 + endings true text
      else endings false text

/-- No line ends in the text, but a carriage return may be its last unit. -/
def Flat (text : List Nat) : Prop := 10 ∉ text ∧ 13 ∉ text.dropLast

instance (text : List Nat) : Decidable (Flat text) :=
  inferInstanceAs (Decidable (10 ∉ text ∧ 13 ∉ text.dropLast))

/-- The line of a flat text. -/
def lineOf (text : List Nat) : List Nat := text.filter (· ≠ 13)

theorem linesFrom_ne_nil (b : Bool) (text : List Nat) : linesFrom b text ≠ [] := by
  induction text generalizing b with
  | nil => exact List.cons_ne_nil _ _
  | cons u text ih =>
      rw [linesFrom]
      split
      · split
        · exact ih false
        · exact List.cons_ne_nil _ _
      · split
        · exact List.cons_ne_nil _ _
        · split <;> exact List.cons_ne_nil _ _

theorem linesFrom_plain {u : Nat} (h : u ≠ 10) (h' : u ≠ 13) (b : Bool) (text : List Nat) :
    ∃ line rest, linesFrom false text = line :: rest ∧
      linesFrom b (u :: text) = (u :: line) :: rest := by
  obtain ⟨line, rest, hl⟩ := List.exists_cons_of_ne_nil (linesFrom_ne_nil false text)
  exact ⟨line, rest, hl, by simp only [linesFrom, h, h', if_false, hl]⟩

theorem length_linesFrom (b : Bool) (text rest : List Nat) :
    (linesFrom b (text ++ 10 :: rest)).length = endings b text + (linesFrom false rest).length := by
  induction text generalizing b with
  | nil => cases b <;> simp [linesFrom, endings, Nat.add_comm]
  | cons u text ih =>
      by_cases h : u = 10
      · subst h
        cases b <;> simp [linesFrom, endings, ih]
        omega
      · by_cases h' : u = 13
        · subst h'
          simp [linesFrom, endings, ih]
          omega
        · obtain ⟨line, lines, hl, hu⟩ := linesFrom_plain h h' b (text ++ 10 :: rest)
          rw [List.cons_append, hu, endings, if_neg h, if_neg h', ← ih false, hl]
          simp

theorem endings_pos (text : List Nat) : 1 ≤ endings false text := by
  induction text with
  | nil => simp [endings]
  | cons u text ih =>
      rw [endings]
      split
      · simp
      · split
        · omega
        · exact ih

theorem endings_true_eq_zero {text : List Nat} : endings true text = 0 ↔ text = [] := by
  cases text with
  | nil => simp [endings]
  | cons u text =>
      have := endings_pos text
      rw [endings]
      split <;> [skip; split] <;> simp <;> omega

/-- One line ends in a text exactly when it is flat. -/
theorem endings_eq_one {text : List Nat} : endings false text = 1 ↔ Flat text := by
  induction text with
  | nil => simp [endings, Flat]
  | cons u text ih =>
      by_cases h : u = 10
      · have hpos := endings_pos text
        subst h
        simp [endings, Flat]
        omega
      · by_cases h' : u = 13
        · subst h'
          have hz : 1 + endings true text = 1 ↔ text = [] := by
            rw [← endings_true_eq_zero]
            omega
          rw [endings, if_neg (by decide), if_pos rfl, hz]
          cases text <;> simp [Flat]
        · rw [endings, if_neg h, if_neg h', ih]
          cases text with
          | nil => simp [Flat, Ne.symm h]
          | cons v text => simp [Flat, Ne.symm h, Ne.symm h']

theorem linesFrom_flat {text : List Nat} (h : Flat text) (rest : List Nat) :
    linesFrom false (text ++ 10 :: rest) = lineOf text :: linesFrom false rest := by
  induction text with
  | nil => simp [linesFrom, lineOf]
  | cons u text ih =>
      have hu : u ≠ 10 := fun e => h.1 (by simp [e])
      by_cases h' : u = 13
      · subst h'
        have htext : text = [] := by
          cases text with
          | nil => rfl
          | cons v text => exact absurd (by simp) h.2
        subst htext
        simp [linesFrom, lineOf]
      · have hflat : Flat text := by
          refine ⟨fun hm => h.1 (List.mem_cons_of_mem u hm), fun hm => h.2 ?_⟩
          cases text with
          | nil => cases hm
          | cons v text => exact List.mem_cons_of_mem u hm
        obtain ⟨line, lines, hl, hcons⟩ := linesFrom_plain hu h' false (text ++ 10 :: rest)
        rw [ih hflat] at hl
        cases hl
        rw [List.cons_append, hcons]
        simp [lineOf, h']

/-- Flat texts, each followed by a line feed, are the lines of what they make. -/
theorem lines_flatMap {texts : List (List Nat)} (h : ∀ t ∈ texts, Flat t) :
    lines (texts.flatMap (· ++ [10])) = texts.map lineOf ++ [[]] := by
  induction texts with
  | nil => rfl
  | cons t texts ih =>
      have hcons : (t :: texts).flatMap (· ++ [10]) =
          t ++ 10 :: texts.flatMap (· ++ [10]) := by simp
      rw [lines, hcons, linesFrom_flat (h t List.mem_cons_self)]
      exact congrArg _ (ih fun t ht => h t (List.mem_cons_of_mem _ ht))

/-- Texts followed by a line feed each make as many lines as there are texts, and an empty one,
exactly when each of them is flat. -/
theorem length_lines_iff (texts : List (List Nat)) :
    (lines (texts.flatMap (· ++ [10]))).length = texts.length + 1 ↔ ∀ t ∈ texts, Flat t := by
  constructor
  · intro h
    have hsum : ∀ texts : List (List Nat), (lines (texts.flatMap (· ++ [10]))).length =
        (texts.map (endings false)).sum + 1 := by
      intro texts
      induction texts with
      | nil => rfl
      | cons t texts ih =>
          have hcons : (t :: texts).flatMap (· ++ [10]) =
              t ++ 10 :: texts.flatMap (· ++ [10]) := by simp
          rw [lines, hcons, length_linesFrom, ← lines, ih, List.map_cons, List.sum_cons,
            Nat.add_assoc]
    have hlen : (texts.map (endings false)).sum = texts.length := by
      have := hsum texts
      omega
    have hall : ∀ texts : List (List Nat), texts.length ≤ (texts.map (endings false)).sum ∧
        ((texts.map (endings false)).sum = texts.length → ∀ t ∈ texts, endings false t = 1) := by
      intro texts
      induction texts with
      | nil => simp
      | cons t texts ih =>
          have hpos := endings_pos t
          refine ⟨by simp; omega, fun hs => ?_⟩
          simp only [List.map_cons, List.sum_cons, List.length_cons] at hs
          have ht : endings false t = 1 := by omega
          have hrest : (texts.map (endings false)).sum = texts.length := by omega
          intro x hx
          rcases List.mem_cons.mp hx with rfl | hx
          · exact ht
          · exact ih.2 hrest x hx
    exact fun t ht => endings_eq_one.mp ((hall texts).2 hlen t ht)
  · intro h
    rw [lines_flatMap h]
    simp

/-! ### Cells -/

/-- The pipes of a row without a backslash before them, where the row follows such a backslash
or not. -/
def pipes (escaped : Bool) : List Nat → Nat
  | [] => 0
  | u :: row =>
      (if u = 124 ∧ escaped = false then 1 else 0) + pipes (u = 92 && !escaped) row

/-- The cells of a table row with a pipe at both ends. -/
def cells (row : List Nat) : Nat := pipes false row - 1

theorem pipes_plain {text : List Nat} (h : ∀ u ∈ text, u ≠ 124 ∧ u ≠ 92) (row : List Nat) :
    pipes false (text ++ row) = pipes false row := by
  induction text with
  | nil => rfl
  | cons u text ih =>
      obtain ⟨hpipe, hslash⟩ := h u List.mem_cons_self
      simp [pipes, hpipe, hslash, ih fun v hv => h v (List.mem_cons_of_mem u hv)]

/-! ### Code spans -/

/-- A run of backticks: how long it is, and how long it is as the opening of a span, which is one
less after a backslash. -/
structure Ticks where
  length : Nat
  opens : Nat
  deriving DecidableEq

/-- The runs of backticks of a text, from within a run or outside, after a backslash or not. -/
def ticksFrom (escaped : Bool) (run : Option Ticks) : List Nat → List Ticks
  | [] => run.toList
  | u :: text =>
      if u = 96 then
        match run with
        | some ⟨n, o⟩ => ticksFrom false (some ⟨n + 1, o + 1⟩) text
        | none => ticksFrom false (some ⟨1, if escaped then 0 else 1⟩) text
      else run.toList ++ ticksFrom (u = 92 && !escaped) none text

/-- The runs of backticks of a text. -/
def ticks (text : List Nat) : List Ticks := ticksFrom false none text

/-- What follows the first run of a length. -/
def closeAt (n : Nat) : List Ticks → Option (List Ticks)
  | [] => none
  | t :: ts => if t.length = n then some ts else closeAt n ts

theorem closeAt_eq_none {n : Nat} {ts : List Ticks} :
    closeAt n ts = none ↔ ∀ t ∈ ts, t.length ≠ n := by
  induction ts with
  | nil => simp [closeAt]
  | cons t ts ih => by_cases h : t.length = n <;> simp [closeAt, h, ih]

theorem closeAt_eq_some {n : Nat} {ts rest : List Ticks} :
    closeAt n ts = some rest ↔ ∃ between b, ts = between ++ b :: rest ∧
      (∀ t ∈ between, t.length ≠ n) ∧ b.length = n := by
  constructor
  · intro h
    induction ts with
    | nil => cases h
    | cons t ts ih =>
        by_cases ht : t.length = n
        · rw [closeAt, if_pos ht] at h
          cases h
          exact ⟨[], t, rfl, nofun, ht⟩
        · rw [closeAt, if_neg ht] at h
          obtain ⟨between, b, rfl, hbetween, hb⟩ := ih h
          exact ⟨t :: between, b, rfl, List.forall_mem_cons.mpr ⟨ht, hbetween⟩, hb⟩
  · rintro ⟨between, b, rfl, hbetween, hb⟩
    induction between with
    | nil => simp [closeAt, hb]
    | cons t between ih =>
        obtain ⟨ht, hbetween⟩ := List.forall_mem_cons.mp hbetween
        rw [List.cons_append, closeAt, if_neg ht]
        exact ih hbetween

theorem closeAt_length {n : Nat} {ts rest : List Ticks} (h : closeAt n ts = some rest) :
    rest.length < ts.length := by
  obtain ⟨between, b, rfl, -⟩ := closeAt_eq_some.mp h
  simp
  omega

/-- The code spans of runs of backticks. -/
def spans : List Ticks → Nat
  | [] => 0
  | t :: ts =>
      match h : closeAt t.opens ts with
      | none => spans ts
      | some rest => 1 + spans rest
  termination_by ts => ts.length
  decreasing_by
    · simp
    · have hlen := closeAt_length h
      simp only [List.length_cons]
      omega

/-- The code spans of a text. -/
def codeSpans (text : List Nat) : Nat := spans (ticks text)

/-- No run has a later one that closes it. -/
def Unpaired (ts : List Ticks) : Prop := ts.Pairwise fun a b => b.length ≠ a.opens

/-- The first run that a later one closes, and none is closed before it or after the one that
closes it. -/
def OnePair (ts : List Ticks) : Prop :=
  ∃ before a between b after, ts = before ++ a :: (between ++ b :: after) ∧
    Unpaired before ∧ (∀ t ∈ before, ∀ c ∈ a :: (between ++ b :: after), c.length ≠ t.opens) ∧
    (∀ t ∈ between, t.length ≠ a.opens) ∧ b.length = a.opens ∧ Unpaired after

/-- There is no code span exactly when no run is closed. -/
theorem spans_eq_zero (ts : List Ticks) : spans ts = 0 ↔ Unpaired ts := by
  fun_induction spans ts with
  | case1 => simp [Unpaired]
  | case2 t ts h ih =>
      rw [ih, Unpaired, Unpaired, List.pairwise_cons]
      exact ⟨fun hrest => ⟨closeAt_eq_none.mp h, hrest⟩, fun hu => hu.2⟩
  | case3 t ts rest h ih =>
      constructor
      · intro hs
        omega
      · intro hu
        obtain ⟨between, b, rfl, -, hb⟩ := closeAt_eq_some.mp h
        exact absurd hb ((List.pairwise_cons.mp hu).1 b (by simp))

/-- There is one code span exactly when one run is closed and no other is outside it. -/
theorem spans_eq_one (ts : List Ticks) : spans ts = 1 ↔ OnePair ts := by
  fun_induction spans ts with
  | case1 =>
      simp only [Nat.zero_ne_one, false_iff]
      rintro ⟨before, a, between, b, after, hts, -⟩
      cases before <;> cases hts
  | case2 t ts h ih =>
      have hall := closeAt_eq_none.mp h
      rw [ih]
      constructor
      · rintro ⟨before, a, between, b, after, rfl, hbefore, hclosed, hrest⟩
        refine ⟨t :: before, a, between, b, after, rfl, ?_, ?_, hrest⟩
        · exact List.pairwise_cons.mpr
            ⟨fun c hc => hall c (List.mem_append_left _ hc), hbefore⟩
        · intro t' ht' c hc
          rcases List.mem_cons.mp ht' with rfl | ht'
          · exact hall c (List.mem_append_right _ hc)
          · exact hclosed t' ht' c hc
      · rintro ⟨before, a, between, b, after, hts, hbefore, hclosed, hbetween, hb, hafter⟩
        cases before with
        | nil =>
            cases hts
            exact absurd hb (hall b (by simp))
        | cons t' before =>
            cases hts
            exact ⟨before, a, between, b, after, rfl, (List.pairwise_cons.mp hbefore).2,
              fun t' ht' => hclosed t' (List.mem_cons_of_mem _ ht'), hbetween, hb, hafter⟩
  | case3 t ts rest h ih =>
      have hzero : 1 + spans rest = 1 ↔ spans rest = 0 := by omega
      rw [hzero, spans_eq_zero]
      constructor
      · intro hrest
        obtain ⟨between, b, rfl, hbetween, hb⟩ := closeAt_eq_some.mp h
        exact ⟨[], t, between, b, rest, rfl, List.Pairwise.nil, nofun, hbetween, hb, hrest⟩
      · rintro ⟨before, a, between, b, after, hts, hbefore, hclosed, hbetween, hb, hafter⟩
        cases before with
        | nil =>
            cases hts
            have hrest : closeAt t.opens (between ++ b :: after) = some after :=
              closeAt_eq_some.mpr ⟨between, b, rfl, hbetween, hb⟩
            rw [h] at hrest
            cases hrest
            exact hafter
        | cons t' before =>
            -- the first run is closed, before or after the pair
            cases hts
            obtain ⟨between', b', hsplit, -, hb'⟩ := closeAt_eq_some.mp h
            have hmem : b' ∈ before ++ a :: (between ++ b :: after) := by
              rw [show before ++ a :: (between ++ b :: after) = _ from hsplit]
              simp
            rcases List.mem_append.mp hmem with hmem | hmem
            · exact absurd hb' ((List.pairwise_cons.mp hbefore).1 b' hmem)
            · exact absurd hb' (hclosed _ List.mem_cons_self b' hmem)

/-- When there is one code span. -/
theorem codeSpans_eq_one_iff (text : List Nat) : codeSpans text = 1 ↔ OnePair (ticks text) :=
  spans_eq_one _

/-- What has no backtick and no backslash changes nothing before it. -/
theorem ticks_append {text : List Nat} (h : ∀ u ∈ text, u ≠ 96 ∧ u ≠ 92) (rest : List Nat) :
    ticks (text ++ rest) = ticks rest := by
  induction text with
  | nil => rfl
  | cons u text ih =>
      obtain ⟨htick, hslash⟩ := h u List.mem_cons_self
      rw [← ih fun v hv => h v (List.mem_cons_of_mem u hv)]
      simp [ticks, ticksFrom, htick, hslash]

/-- A text without backticks between two of them is one code span. -/
theorem onePair_of_no_backtick {text : List Nat} (h : 96 ∉ text) (hne : text ≠ []) :
    OnePair (ticks (96 :: (text ++ [96]))) := by
  have hlast : ∀ (text : List Nat) (escaped : Bool), 96 ∉ text →
      ∃ o, ticksFrom escaped none (text ++ [96]) = [⟨1, o⟩] := by
    intro text
    induction text with
    | nil => exact fun escaped _ => ⟨_, rfl⟩
    | cons u text ih =>
        intro escaped hu
        have hu' : u ≠ 96 := fun e => hu (by simp [e])
        obtain ⟨o, ho⟩ := ih (u = 92 && !escaped) fun hm => hu (List.mem_cons_of_mem u hm)
        exact ⟨o, by simpa [ticksFrom, hu'] using ho⟩
  obtain ⟨u, text, rfl⟩ := List.exists_cons_of_ne_nil hne
  have hu : u ≠ 96 := fun e => h (by simp [e])
  obtain ⟨o, ho⟩ := hlast text (u = 92) fun hm => h (List.mem_cons_of_mem u hm)
  have hticks : ticks (96 :: (u :: text ++ [96])) = [⟨1, 1⟩, ⟨1, o⟩] := by
    simpa [ticks, ticksFrom, hu] using ho
  rw [hticks]
  exact ⟨[], ⟨1, 1⟩, [], ⟨1, o⟩, [], rfl, List.Pairwise.nil, nofun, nofun, rfl,
    List.Pairwise.nil⟩

end Durable.Markdown
