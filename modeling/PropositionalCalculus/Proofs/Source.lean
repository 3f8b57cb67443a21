import PropositionalCalculus.Source

/-!
# Bytes in front of a source, and the reads that are left

`Source.append` puts bytes in front of a source. `Source.reads` counts what is still to be read, one for
each byte and one for each failed read, so that every read of a source that has not ended lowers it by
one.
-/

set_option autoImplicit false

namespace PropositionalCalculus.Source

/-! ## Putting bytes in front -/

@[simp] theorem append_cons (b : UInt8) (bytes : List UInt8) (rest : Source) :
    append (b :: bytes) rest = .byte b (append bytes rest) := rfl

theorem append_append (xs ys : List UInt8) (rest : Source) :
    append (xs ++ ys) rest = append xs (append ys rest) := by
  rw [append, List.foldr_append]
  rfl

/-- A source of bytes that begins with the given ones. -/
theorem ofBytes_append (xs ys : List UInt8) : ofBytes (xs ++ ys) = append xs (ofBytes ys) :=
  append_append xs ys .ended

/-! ## Counting reads -/

theorem countReads_eq (source : Source) (count : Nat) :
    source.countReads count = count + source.reads := by
  induction source generalizing count with
  | ended => rfl
  | failing fault => rfl
  | byte b rest ih =>
      rw [reads, countReads, countReads, ih, ih (0 + 1)]
      omega
  | fault kind again rest ih =>
      rw [reads, countReads, countReads, ih, ih (0 + again + 1)]
      omega

@[simp] theorem reads_byte (b : UInt8) (rest : Source) :
    (Source.byte b rest).reads = rest.reads + 1 := by
  rw [reads, countReads, countReads_eq]
  omega

@[simp] theorem reads_fault (kind : ReadFault) (again : Nat) (rest : Source) :
    (Source.fault kind again rest).reads = rest.reads + again + 1 := by
  rw [reads, countReads, countReads_eq]
  omega

/-- A failed read uses up one read. -/
theorem reads_afterFault (kind : ReadFault) (again : Nat) (rest : Source) :
    (rest.afterFault kind again).reads + 1 = (Source.fault kind again rest).reads := by
  cases again with
  | zero => rw [reads_fault]; rfl
  | succ n =>
      rw [reads_fault, afterFault, reads_fault]
      omega

end PropositionalCalculus.Source
