import Mathlib.Order.Bounds.Defs
import Mathlib.Tactic.ByContra
import PropositionalCalculus.Proofs.Line.Reading

/-!
# Where a line is rejected

A beginning of a line is *viable* when some plain formula begins with it. A line is refused at its first
character with which it stops being viable, neither earlier nor later; a line that stays viable to its end
is blank, unterminated, incomplete, or a formula (`readLine_rejected`).
-/

set_option autoImplicit false

namespace PropositionalCalculus

open Line

/-- The bytes of the first line, without blanks. -/
def Line.significant (bytes : List UInt8) : List UInt8 :=
  withoutBlanks (bytes.takeWhile (· ≠ lineFeed))

namespace Notation

/-- The text of some plain formula begins with these bytes. -/
def Viable (n : Notation) (bytes : List UInt8) : Prop :=
  ∃ f : Formula, f.Plain ∧ bytes <+: f.bytes n

variable {n : Notation}

/-- Bytes are viable when their characters begin a formula. -/
theorem opens_iff_viable {bytes : List UInt8} : n.Opens (bytes.map Char.ofUInt8) ↔ n.Viable bytes := by
  constructor
  · rintro ⟨f, hf, hbegin⟩
    refine ⟨f, hf, ?_⟩
    rw [← Formula.map_ofUInt8_bytes hf, List.prefix_iff_eq_take, ← List.map_take,
      List.map_inj_right fun a b => ofUInt8_injective, List.length_map] at hbegin
    rw [hbegin]
    exact List.take_prefix _ _
  · rintro ⟨f, hf, hbegin⟩
    refine ⟨f, hf, ?_⟩
    rw [← Formula.map_ofUInt8_bytes hf]
    exact hbegin.map _

theorem Viable.shorten {xs ys : List UInt8} (h : n.Viable ys) (hxs : xs <+: ys) : n.Viable xs := by
  obtain ⟨f, hf, hys⟩ := h
  exact ⟨f, hf, hxs.trans hys⟩

/-- Bytes are a first line without a line feed, and what stands behind it: nothing, or a line feed and the
other lines. -/
theorem exists_first_line (bytes : List UInt8) :
    ∃ w tail, lineFeed ∉ w ∧ bytes = w ++ tail ∧ bytes.takeWhile (· ≠ lineFeed) = w ∧
      (tail = [] ∨ ∃ rest, tail = lineFeed :: rest) := by
  induction bytes with
  | nil => exact ⟨[], [], List.not_mem_nil, rfl, rfl, Or.inl rfl⟩
  | cons b bytes ih =>
      by_cases hb : b = lineFeed
      · subst hb
        exact ⟨[], _, List.not_mem_nil, rfl, by simp, Or.inr ⟨bytes, rfl⟩⟩
      · obtain ⟨w, tail, hw, rfl, hline, htail⟩ := ih
        refine ⟨b :: w, tail, ?_, rfl, ?_, htail⟩
        · rw [List.mem_cons, not_or]
          exact ⟨Ne.symm hb, hw⟩
        · rw [List.takeWhile_cons_of_pos (by simpa using hb), hline]

/-- The source behind the first line: it has ended, or a line feed and the other lines follow. -/
theorem ofBytes_first_line {w tail : List UInt8} (htail : tail = [] ∨ ∃ rest, tail = lineFeed :: rest) :
    Source.ofBytes (w ++ tail) = Source.append w .ended ∧ tail = [] ∨
      ∃ rest, Source.ofBytes (w ++ tail) = Source.append w (.byte lineFeed (Source.ofBytes rest)) ∧
        tail = lineFeed :: rest := by
  rw [Source.ofBytes_append]
  rcases htail with rfl | ⟨rest, rfl⟩
  · exact Or.inl ⟨rfl, rfl⟩
  · exact Or.inr ⟨rest, rfl, rfl⟩

/-- A line that is not viable is refused at the first byte with which it stops being viable. -/
theorem exists_refused {bytes : List UInt8} (h : ¬ n.Viable (significant bytes)) :
    ∃ why k b, (n.readLine (Source.ofBytes bytes)).1 = .error (.refused why (Char.ofUInt8 b) (k + 1)) ∧
      (significant bytes)[k]? = some b ∧ (why = .illegal ↔ ¬ n.Uses (Char.ofUInt8 b)) ∧
      n.Viable ((significant bytes).take k) ∧ ¬ n.Viable ((significant bytes).take (k + 1)) := by
  obtain ⟨σ, m, After, hread, hm⟩ := n.exists_recognizes
  obtain ⟨w, tail, hw, rfl, hline, htail⟩ := exists_first_line bytes
  rw [significant, hline, ← opens_iff_viable] at h
  rw [significant, hline, hread]
  obtain ⟨before, c, after, why, hchars, hopens, hnot, hwhy, hrefused⟩ := hm.readLine_refused hw h
  have hc : (characters w)[before.length]? = some c := by rw [hchars]; simp
  have hbefore : before = ((withoutBlanks w).take before.length).map Char.ofUInt8 := by
    rw [List.map_take]
    change before = (characters w).take before.length
    rw [hchars, List.take_left]
  have hnext : before ++ [c] = ((withoutBlanks w).take (before.length + 1)).map Char.ofUInt8 := by
    rw [List.map_take]
    change before ++ [c] = (characters w).take (before.length + 1)
    rw [hchars, List.take_append, List.take_of_length_le (Nat.le_succ _), Nat.add_sub_cancel_left]
    rfl
  rw [characters, List.getElem?_map, Option.map_eq_some_iff] at hc
  obtain ⟨b, hb, rfl⟩ := hc
  rw [hbefore, opens_iff_viable] at hopens
  rw [hnext, opens_iff_viable] at hnot
  refine ⟨why, before.length, b, ?_, hb, hwhy, hopens, hnot⟩
  rcases ofBytes_first_line (w := w) htail with ⟨hsource, -⟩ | ⟨rest, hsource, -⟩
  · rw [hsource, hrefused]
    rfl
  · rw [hsource, hrefused, skip_lineFeed]

/-- A viable line is not refused: it is blank, ends too early, or is a formula. -/
theorem readLine_viable {bytes : List UInt8} (h : n.Viable (significant bytes)) :
    (n.readLine (Source.ofBytes bytes)).1 =
        (if significant bytes = [] then .ok none
        else if lineFeed ∈ bytes then .error .incomplete else .error .unexpectedEnd) ∨
      ∃ f : Formula, f.Plain ∧ significant bytes = f.bytes n ∧ significant bytes ≠ [] ∧
        lineFeed ∈ bytes ∧ (n.readLine (Source.ofBytes bytes)).1 = .ok (some f) := by
  obtain ⟨σ, m, After, hread, hm⟩ := n.exists_recognizes
  obtain ⟨w, tail, hw, rfl, hline, htail⟩ := exists_first_line bytes
  have hsig : significant (w ++ tail) = withoutBlanks w := by rw [significant, hline]
  rw [hsig] at h ⊢
  have hopens : n.Opens (characters w) := opens_iff_viable.2 h
  by_cases hblank : withoutBlanks w = []
  · have hchars : characters w = [] := by rw [characters, hblank]; rfl
    rw [if_pos hblank, hread]
    left
    rcases ofBytes_first_line (w := w) htail with ⟨hsource, -⟩ | ⟨rest, hsource, -⟩
    · rw [hsource, m.readLine_blank_ended hw hchars]
    · rw [hsource, hm.readLine_blank hw hchars]
  · have hchars : characters w ≠ [] := by simpa [characters] using hblank
    rw [if_neg hblank]
    rcases ofBytes_first_line (w := w) htail with ⟨hsource, rfl⟩ | ⟨rest, hsource, rfl⟩
    · left
      rw [if_neg (by simpa using hw), hsource, hread, hm.readLine_unterminated hw hopens hchars]
    · rw [hsource, if_pos (by simp)]
      by_cases hformula : ∃ f : Formula, f.Plain ∧ withoutBlanks w = f.bytes n
      · obtain ⟨f, hf, hbytes⟩ := hformula
        right
        exact ⟨f, hf, hbytes, hblank, by simp, by rw [readLine_of_withoutBlanks hf hw hbytes]⟩
      · left
        rw [hread, hm.readLine_incomplete hw hopens hchars]
        intro f hf hsymbols
        exact hformula ⟨f, hf, (Formula.map_ofUInt8_eq_symbols hf).1 hsymbols⟩

/-- No character of a viable line is refused. -/
theorem not_refused_of_viable {bytes : List UInt8} (h : n.Viable (significant bytes)) (why : Refusal)
    (c : Char) (position : Nat) :
    (n.readLine (Source.ofBytes bytes)).1 ≠ .error (.refused why c position) := by
  rcases readLine_viable h with houtcome | ⟨f, -, -, -, -, houtcome⟩
  · rw [houtcome]
    repeat' split
    all_goals exact nofun
  · rw [houtcome]
    exact nofun

/-- Bytes are viable when all their beginnings are. -/
theorem viable_take_iff {bytes : List UInt8} : (∀ k, n.Viable (bytes.take k)) ↔ n.Viable bytes := by
  constructor
  · intro h
    rw [← List.take_length (l := bytes)]
    exact h _
  · intro h k
    exact h.shorten (List.take_prefix k bytes)

/-- **A line is rejected at the earliest point.** Some beginning of the line is not viable if and only if a
character is refused, and then it is the one that completes the shortest such beginning; it is illegal if and
only if the notation does not use it. A line all of whose beginnings are viable gives nothing if it is blank,
is unterminated if the input ends before its line feed, and is incomplete if it is no formula's text. -/
theorem readLine_rejected (n : Notation) (bytes : List UInt8) :
    ((∃ why c position, (n.readLine (Source.ofBytes bytes)).1 = .error (.refused why c position)) ↔
        ∃ k, ¬ n.Viable ((significant bytes).take k)) ∧
      (∀ why c position, (n.readLine (Source.ofBytes bytes)).1 = .error (.refused why c position) →
        IsLeast {k | ¬ n.Viable ((significant bytes).take k)} position ∧
          (∃ b, (significant bytes)[position - 1]? = some b ∧ c = Char.ofUInt8 b) ∧
          (why = .illegal ↔ ¬ n.Uses c)) ∧
      ((∀ k, n.Viable ((significant bytes).take k)) →
        (significant bytes = [] → (n.readLine (Source.ofBytes bytes)).1 = .ok none) ∧
          (significant bytes ≠ [] → lineFeed ∉ bytes →
            (n.readLine (Source.ofBytes bytes)).1 = .error .unexpectedEnd) ∧
          (significant bytes ≠ [] → lineFeed ∈ bytes →
            (∀ f : Formula, f.Plain → significant bytes ≠ f.bytes n) →
            (n.readLine (Source.ofBytes bytes)).1 = .error .incomplete)) := by
  refine ⟨⟨?_, ?_⟩, ?_, ?_⟩
  · rintro ⟨why, c, position, houtcome⟩
    by_contra hviable
    rw [Classical.not_exists_not, viable_take_iff] at hviable
    exact not_refused_of_viable hviable why c position houtcome
  · rintro ⟨k, hk⟩
    have hrefused : ¬ n.Viable (significant bytes) := by
      intro h
      exact hk (viable_take_iff.2 h k)
    obtain ⟨why, j, b, houtcome, -⟩ := exists_refused hrefused
    exact ⟨why, _, _, houtcome⟩
  · intro why c position houtcome
    have hrefused : ¬ n.Viable (significant bytes) := by
      intro h
      exact not_refused_of_viable h why c position houtcome
    obtain ⟨why', k, b, houtcome', hb, hwhy, hbefore, hat⟩ := exists_refused hrefused
    obtain ⟨rfl, rfl, rfl⟩ := LineError.refused.inj (Except.error.inj (houtcome.symm.trans houtcome'))
    refine ⟨⟨hat, ?_⟩, ⟨b, hb, rfl⟩, hwhy⟩
    intro j hj
    -- A beginning shorter than this one is a beginning of a viable one.
    by_contra hlt
    exact hj (hbefore.shorten (List.take_prefix_take_left (by omega)))
  · intro hall
    rcases readLine_viable (viable_take_iff.1 hall) with houtcome | ⟨f, hf, hbytes, hne, hended, -⟩
    · rw [houtcome]
      refine ⟨?_, ?_, ?_⟩
      · intro hblank
        rw [if_pos hblank]
      · intro hblank hn
        rw [if_neg hblank, if_neg hn]
      · intro hblank hn _
        rw [if_neg hblank, if_pos hn]
    · -- The line is a formula's text, which none of the three parts is about.
      refine ⟨?_, ?_, ?_⟩
      · intro hblank
        exact absurd hblank hne
      · intro _ hn
        exact absurd hended hn
      · intro _ _ hpart
        exact absurd hbytes (hpart f hf)

end Notation

end PropositionalCalculus
