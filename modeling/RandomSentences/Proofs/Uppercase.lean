import RandomSentences.Text.Blank
import RandomSentences.Text.Uppercase

/-!
# What the uppercase of a character can be

Each character in the uppercase of a character is the character itself or neither a blank nor a
period (`mem_uppercase`). So putting a text's first character in upper case can bring neither a
blank nor a period into it.

This is read off the tables of the mapping. Blanks and the period leave a few wide gaps between
them, and every run of the tables is moved into one of these gaps.
-/

namespace RandomSentences.Text

/-- The gaps between blanks and the period, as first and last code point. -/
def gaps : List (Nat × Nat) :=
  [(0x2F, 0x84), (0xA1, 0x167F), (0x1681, 0x1FFF), (0x2060, 0x2FFF), (0x3001, 0x10FFFF)]

/-- Whether all code points between two lie in one gap. -/
def inGap (first last : Int) : Bool :=
  gaps.any fun gap => gap.1 ≤ first && last ≤ gap.2

theorem inGap_iff {first last : Int} :
    inGap first last = true ↔ (0x2F ≤ first ∧ last ≤ 0x84) ∨ (0xA1 ≤ first ∧ last ≤ 0x167F) ∨
      (0x1681 ≤ first ∧ last ≤ 0x1FFF) ∨ (0x2060 ≤ first ∧ last ≤ 0x2FFF) ∨
      (0x3001 ≤ first ∧ last ≤ 0x10FFFF) := by
  simp [inGap, gaps]

/-- A character with a code point in a gap is neither a blank nor a period. A code point that is no
character's stands for the zero character, of which the same is true. -/
theorem not_isBlank_of_inGap {first last : Int} {n : Nat} (h : inGap first last = true)
    (hfirst : first ≤ n) (hlast : n ≤ last) :
    isBlank (Char.ofNat n) = false ∧ Char.ofNat n ≠ '.' := by
  by_cases hn : n.isValidChar
  · have htoNat : (Char.ofNat n).val.toNat = n := by
      rw [Char.ofNat, dif_pos hn]
      rfl
    rw [inGap_iff] at h
    -- all code points of blanks, and that of the period, are outside of the gaps
    constructor
    · rw [Bool.eq_false_iff]
      simp only [isBlank, ne_eq, Bool.or_eq_true, Bool.and_eq_true, decide_eq_true_eq, beq_iff_eq,
        UInt32.le_iff_toNat_le, ← UInt32.toNat_inj, htoNat, UInt32.toNat_ofNat]
      omega
    · intro hdot
      have hcode : ('.').val.toNat = 0x2E := rfl
      rw [hdot, hcode] at htoNat
      omega
  · rw [Char.ofNat, dif_neg hn]
    decide

theorem nonneg_of_inGap {first last : Int} (h : inGap first last = true) : 0 ≤ first := by
  rw [inGap_iff] at h
  omega

theorem inGap_of_mem_uppercaseRuns :
    ∀ run ∈ uppercaseRuns, inGap (run.first + run.shift) (run.last + run.shift) = true := by
  decide +kernel

theorem inGap_of_mem_uppercaseExpansions :
    ∀ entry ∈ uppercaseExpansions, ∀ n ∈ entry.2, inGap n n = true := by
  decide +kernel

variable {c d : Char}

/-- The uppercase of a character comes from a table, or is the character itself. -/
theorem uppercase_cases (c : Char) :
    (∃ entry ∈ uppercaseExpansions, uppercase c = entry.2.map Char.ofNat) ∨
      (∃ run ∈ uppercaseRuns, ∃ n : Nat, run.first + run.shift ≤ n ∧ n ≤ run.last + run.shift ∧
        uppercase c = [Char.ofNat n]) ∨
      uppercase c = [c] := by
  unfold uppercase
  split
  · rename_i expansion hlookup
    obtain ⟨before, after, htable, -⟩ := List.lookup_eq_some_iff.mp hlookup
    exact .inl ⟨(c.toNat, expansion), by simp [htable], rfl⟩
  · split
    · rename_i run hfound
      have hrun := List.mem_of_find?_eq_some hfound
      have hcontains := List.find?_some hfound
      simp only [CaseRun.contains, Bool.and_eq_true, decide_eq_true_eq] at hcontains
      have hpos := nonneg_of_inGap (inGap_of_mem_uppercaseRuns run hrun)
      exact .inr (.inl ⟨run, hrun, _, by omega, by omega, rfl⟩)
    · exact .inr (.inr rfl)

/-- What is in the uppercase of a character is that character, or neither a blank nor a period. -/
theorem mem_uppercase (h : d ∈ uppercase c) : d = c ∨ isBlank d = false ∧ d ≠ '.' := by
  rcases uppercase_cases c with ⟨entry, hentry, hc⟩ | ⟨run, hrun, n, hfirst, hlast, hc⟩ | hc
  · obtain ⟨n, hn, rfl⟩ := List.mem_map.mp (hc ▸ h)
    have hgap := inGap_of_mem_uppercaseExpansions entry hentry n hn
    exact .inr (not_isBlank_of_inGap hgap (Int.le_refl _) (Int.le_refl _))
  · obtain rfl := List.mem_singleton.mp (hc ▸ h)
    exact .inr (not_isBlank_of_inGap (inGap_of_mem_uppercaseRuns run hrun) hfirst hlast)
  · exact .inl (List.mem_singleton.mp (hc ▸ h))

end RandomSentences.Text
