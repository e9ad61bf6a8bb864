/-
**Matching words.** The end of a block is found by counting, in whatever text is ahead: nothing is
asked of the words in it. The scan is as deep as more opening than closing words have come, so it
ends with the first closing word that is one too many.

* `Machine.Matches`: the place of the word that closes a block whose opening word was read;
* **`Machine.runOn_findBracketWithin_inside`**: the count that the scan keeps;
* `Machine.exists_stop`: the scan stops while it has fuel;
* **`Machine.brackets_are_matched`**: where it ends, and when there is no such place.
-/

import Mathlib.Data.Nat.Count
import PocketBasic.Machine.Run
import PocketBasic.Proofs.Machine.Scanning

namespace PocketBasic

namespace Machine

variable {machine : Machine} {opening closing word : Keyword} {place other : Nat}

/-! ### Counting words -/

/-- How often a word is among the first tokens ahead; the current token is the first one. -/
def occurrences (machine : Machine) (word : Keyword) (places : Nat) : Nat :=
  Nat.count (fun place => (machine.cursorAt place).token = .word word) places

theorem occurrences_succ_of_eq (here : (machine.cursorAt place).token = .word word) :
    machine.occurrences word (place + 1) = machine.occurrences word place + 1 := by
  rw [occurrences, Nat.count_succ, if_pos here, occurrences]

theorem occurrences_succ_of_ne (here : (machine.cursorAt place).token ≠ .word word) :
    machine.occurrences word (place + 1) = machine.occurrences word place := by
  rw [occurrences, Nat.count_succ, if_neg here, Nat.add_zero, occurrences]

/-- Whether a closing word stands at a place ahead, and with it more closing than opening words have
come. -/
def Exceeds (machine : Machine) (opening closing : Keyword) (place : Nat) : Prop :=
  (machine.cursorAt place).token = .word closing ∧
    machine.occurrences opening (place + 1) < machine.occurrences closing (place + 1)

instance : Decidable (machine.Exceeds opening closing place) :=
  inferInstanceAs (Decidable ((machine.cursorAt place).token = .word closing ∧
    machine.occurrences opening (place + 1) < machine.occurrences closing (place + 1)))

/-- Whether neither the text nor the block ends before a place ahead. -/
@[mk_iff]
structure StaysInside (machine : Machine) (opening closing : Keyword) (place : Nat) : Prop where
  goesOn : ∀ earlier < place, (machine.cursorAt earlier).token ≠ .endOfText
  isOpen : ∀ earlier < place, ¬ machine.Exceeds opening closing earlier

instance : Decidable (machine.StaysInside opening closing place) :=
  decidable_of_iff' _ (staysInside_iff ..)

/-- Whether the word that closes the block stands at a place ahead: it is the first one with which
more closing than opening words have come, before the end of the text. -/
@[mk_iff]
structure Matches (machine : Machine) (opening closing : Keyword) (place : Nat) : Prop where
  exceeds : machine.Exceeds opening closing place
  inside : machine.StaysInside opening closing place

instance : Decidable (machine.Matches opening closing place) :=
  decidable_of_iff' _ (matches_iff ..)

theorem Matches.unique (isMatch : machine.Matches opening closing place)
    (again : machine.Matches opening closing other) : place = other := by
  rcases Nat.lt_trichotomy place other with before | same | behind
  · exact absurd isMatch.exceeds (again.inside.isOpen place before)
  · exact same
  · exact absurd again.exceeds (isMatch.inside.isOpen other behind)

/-! ### The scan -/

theorem runOn_findBracketWithin_end (fuel depth : Nat) (here : machine.cursor.token = .endOfText) :
    (findBracketWithin opening closing (fuel + 1) depth).runOn machine =
      (.error (.reported { kind := .missingBlockEnd }), machine) := by
  unfold findBracketWithin
  have looked : token.runOn machine = (.ok .endOfText, machine) := by rw [← here]; rfl
  rw [Attempt.runOn_bind_ok looked]
  rfl

/-- **The scan counts**: at every place that it comes to, its depth is how many more opening than
closing words have come. -/
theorem runOn_findBracketWithin_inside (different : opening ≠ closing)
    (inside : machine.StaysInside opening closing place) (spare : Nat) :
    ∃ depth, machine.occurrences opening place = machine.occurrences closing place + depth ∧
      (findBracketWithin opening closing (place + spare) 0).runOn machine =
        (findBracketWithin opening closing spare depth).runOn (nextToken^[place] machine) := by
  induction place generalizing spare with
  | zero => exact ⟨0, rfl, by rw [Nat.zero_add]; rfl⟩
  | succ place ih =>
    obtain ⟨depth, counted, ran⟩ := ih
      ⟨fun earlier before => inside.goesOn earlier (by omega),
        fun earlier before => inside.isOpen earlier (by omega)⟩ (spare + 1)
    have goesOn := inside.goesOn place (Nat.lt_succ_self place)
    have isOpen := inside.isOpen place (Nat.lt_succ_self place)
    have here : (nextToken^[place] machine).cursor.token = (machine.cursorAt place).token :=
      token_iterate place
    rw [Nat.add_right_comm, Nat.add_assoc, ran, Function.iterate_succ_apply']
    by_cases opens : (machine.cursorAt place).token = .word opening
    · have single : (machine.cursorAt place).token ≠ .word closing := by
        rw [opens]
        exact fun same => different (Token.word.inj same)
      refine ⟨depth + 1, ?_, runOn_findBracketWithin_opening _ _ (here.trans opens)⟩
      rw [occurrences_succ_of_eq opens, occurrences_succ_of_ne single]
      omega
    by_cases closes : (machine.cursorAt place).token = .word closing
    · rw [Exceeds, occurrences_succ_of_eq closes, occurrences_succ_of_ne opens] at isOpen
      obtain ⟨less, rfl⟩ : ∃ less, depth = less + 1 := by
        refine Nat.exists_eq_add_one.mpr (Nat.pos_of_ne_zero fun none => isOpen ⟨closes, ?_⟩)
        omega
      refine ⟨less, ?_, runOn_findBracketWithin_closing _ _ different (here.trans closes)⟩
      rw [occurrences_succ_of_eq closes, occurrences_succ_of_ne opens]
      omega
    · refine ⟨depth, ?_, runOn_findBracketWithin_other _ _ (here ▸ goesOn) (here ▸ opens)
        (here ▸ closes)⟩
      rw [occurrences_succ_of_ne opens, occurrences_succ_of_ne closes, counted]

/-- So many tokens take so many bytes, but for the one that was read before. -/
theorem le_textLength (goesOn : ∀ earlier ≤ place, (machine.cursorAt earlier).token ≠ .endOfText) :
    place ≤ machine.textLength := by
  have behind : place ≤ (machine.cursorAt place).position ∧
      (place = 0 ∨ (machine.cursorAt place).position ≤ machine.textLength) := by
    induction place with
    | zero => exact ⟨Nat.zero_le _, .inl rfl⟩
    | succ place ih =>
      have before := ih fun earlier near => goesOn earlier (by omega)
      have some := goesOn (place + 1) (Nat.le_refl _)
      rw [cursorAt_succ] at some ⊢
      obtain ⟨further, inside⟩ := Cursor.position_lt_next some
      rw [textLength_cursorAt] at inside
      exact ⟨by omega, .inr inside⟩
  omega

/-- **The scan stops**, at the matching word or at the end of the text, and has fuel up to there. -/
theorem exists_stop (machine : Machine) (opening closing : Keyword) :
    ∃ place ≤ machine.textLength + 1, machine.StaysInside opening closing place ∧
      ((machine.cursorAt place).token = .endOfText ∨ machine.Exceeds opening closing place) := by
  obtain ⟨last, -, ends, -⟩ : ∃ count ≤ machine.textLength + 1,
      machine.IsFirst (· = .endOfText) count := exists_isFirst rfl machine
  have somewhere : ∃ place, (machine.cursorAt place).token = .endOfText ∨
      machine.Exceeds opening closing place := ⟨last, .inl (of_decide_eq_true ends)⟩
  classical
  have missed (earlier : Nat) (before : earlier < Nat.find somewhere) :=
    not_or.mp (Nat.find_min somewhere before)
  refine ⟨Nat.find somewhere, ?_, ⟨fun earlier before => (missed earlier before).1,
    fun earlier before => (missed earlier before).2⟩, Nat.find_spec somewhere⟩
  rcases stop : Nat.find somewhere with _ | place
  · exact Nat.zero_le _
  · exact Nat.succ_le_succ (le_textLength fun earlier near => (missed earlier (by omega)).1)

/-- **Either the scan ends on the matching word**, or there is none and it ends with the text. -/
theorem runOn_findBracket_cases (different : opening ≠ closing) :
    (∃ place, machine.Matches opening closing place ∧
      (findBracket opening closing).runOn machine =
        (.ok (), { machine with cursor := machine.cursorAt place })) ∨
    (∀ place, ¬ machine.Matches opening closing place) ∧ ∃ place,
      (findBracket opening closing).runOn machine =
        (.error (.reported { kind := .missingBlockEnd }),
          { machine with cursor := machine.cursorAt place }) := by
  obtain ⟨place, near, inside, stops⟩ := machine.exists_stop opening closing
  obtain ⟨spare, total⟩ := Nat.exists_eq_add_of_le near
  obtain ⟨depth, counted, ran⟩ := runOn_findBracketWithin_inside different inside (spare + 1)
  rw [← Nat.add_assoc, ← total] at ran
  have here : (nextToken^[place] machine).cursor.token = (machine.cursorAt place).token :=
    token_iterate place
  rw [findBracket, Attempt.runOn_get_bind, ran]
  rcases stops with last | exceeds
  · rw [runOn_findBracketWithin_end spare depth (here.trans last), iterate_nextToken]
    refine .inr ⟨fun other found => ?_, place, rfl⟩
    -- A match would come earlier, or behind the end of the text.
    rcases Nat.lt_trichotomy other place with before | rfl | behind
    · exact inside.isOpen other before found.exceeds
    · cases last.symm.trans found.exceeds.1
    · exact found.inside.goesOn place behind last
  · have none : depth = 0 := by
      have more := exceeds.2
      have single : (machine.cursorAt place).token ≠ .word opening := by
        rw [exceeds.1]
        exact fun same => different (Token.word.inj same).symm
      rw [occurrences_succ_of_eq exceeds.1, occurrences_succ_of_ne single] at more
      omega
    rw [none, runOn_findBracketWithin_found spare different (here.trans exceeds.1),
      iterate_nextToken]
    exact .inl ⟨place, ⟨exceeds, inside⟩, rfl⟩

/-- **The word that closes a block is found.** For every two different words and whatever text is
ahead, over the ends of statements and lines: the scan ends on the first closing word with which
more closing than opening words have come; it reports that the end of the block is missing if and
only if there is no such word before the end of the text; and it moves the cursor and nothing
else. -/
theorem brackets_are_matched (different : opening ≠ closing) :
    (∀ after, (findBracket opening closing).runOn machine = (.ok (), after) ↔
      ∃ place, machine.Matches opening closing place ∧
        after = { machine with cursor := machine.cursorAt place }) ∧
    (((findBracket opening closing).runOn machine).1 =
        .error (.reported { kind := .missingBlockEnd }) ↔
      ∀ place, ¬ machine.Matches opening closing place) ∧
    ∃ place, ((findBracket opening closing).runOn machine).2 =
      { machine with cursor := machine.cursorAt place } := by
  rcases @runOn_findBracket_cases machine _ _ different with
    ⟨place, found, ran⟩ | ⟨missing, place, ran⟩
  · refine ⟨fun after => ⟨fun ended => ?_, ?_⟩, ⟨fun failed => ?_, fun missing => ?_⟩, place, ?_⟩
    · rw [ran] at ended
      exact ⟨place, found, (Prod.mk.inj ended).2.symm⟩
    · rintro ⟨other, again, rfl⟩
      rw [ran, found.unique again]
    · rw [ran] at failed
      cases failed
    · exact absurd found (missing place)
    · rw [ran]
  · refine ⟨fun after => ⟨fun ended => ?_, ?_⟩, ⟨fun _ => missing, fun _ => ?_⟩, place, ?_⟩
    · rw [ran] at ended
      cases (Prod.mk.inj ended).1
    · rintro ⟨other, found, -⟩
      exact absurd found (missing other)
    · rw [ran]
    · rw [ran]

/-- The block of a `DO` that was read, with another block in it and with its end in the next
line. -/
theorem brackets_are_matched_nested :
    let typed := ((enter (ascii "10 DO:DO:DEND")).runOn (start { memorySize := 64 } {})).2
    let stored := ((enter (ascii "20 DEND:DEND")).runOn typed).2
    let machine := (jump { mode := .run, offset := 0 } stored).nextToken.nextToken
    Keyword.do ≠ .dend ∧ machine.Matches .do .dend 5 ∧
      (findBracket .do .dend).runOn machine =
        (.ok (), { machine with cursor := machine.cursorAt 5 }) := by
  intro typed stored machine
  have different : Keyword.do ≠ .dend := by decide
  have found : machine.Matches .do .dend 5 := by decide +kernel
  exact ⟨different, found, ((brackets_are_matched different).1 _).mpr ⟨5, found, rfl⟩⟩

end Machine

end PocketBasic
