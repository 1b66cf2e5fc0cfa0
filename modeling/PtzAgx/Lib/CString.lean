import PtzAgx.Lib.Bytes

/-! # C strings of bounded length

A bounded string is what stands in front of the first `NUL` among so many bytes,
all of them if there is none.
-/

namespace PtzAgx.CString

open Bytes

/-- `strncmp`, which never looks behind a `NUL` both strings have. -/
def strncmp : Nat → Ptr UInt8 → Ptr UInt8 → Int
  | 0, _, _ => 0
  | n + 1, p, q =>
      if p 0 ≠ q 0 then (p 0).toNat - (q 0).toNat
      else if p 0 = 0 then 0
      else strncmp n (p.advance 1) (q.advance 1)

/-- The string of at most `n` bytes at `p`. -/
def str (n : Nat) (p : Ptr UInt8) : List UInt8 := (p.read n).takeWhile (· ≠ 0)

theorem str_succ (n : Nat) (p : Ptr UInt8) :
    str (n + 1) p = if p 0 = 0 then [] else p 0 :: str n (p.advance 1) := by
  by_cases zero : p 0 = 0
  · simp [str, Ptr.read_succ, zero]
  · simp [str, Ptr.read_succ, zero]

/-- `strncmp` is zero for equal strings, and for these only. -/
theorem strncmp_eq_zero_iff (n : Nat) (p q : Ptr UInt8) :
    strncmp n p q = 0 ↔ str n p = str n q := by
  induction n generalizing p q with
  | zero => exact iff_of_true rfl rfl
  | succ n ih =>
      rw [strncmp, str_succ, str_succ]
      by_cases differ : p 0 ≠ q 0
      · have apart : ((p 0).toNat : Int) - (q 0).toNat ≠ 0 := by
          intro zero
          exact differ (UInt8.toNat_inj.mp (by omega))
        rw [if_pos differ]
        refine iff_of_false apart ?_
        intro same
        split_ifs at same with left right
        · exact differ (left.trans right.symm)
        · exact differ (List.cons.inj same).1
      · rw [if_neg differ, ← not_not.mp differ]
        by_cases zero : p 0 = 0
        · simp [zero]
        · simp [zero, ih]

theorem str_congr {n : Nat} {p q : Ptr UInt8} (same : p.read n = q.read n) : str n p = str n q := by
  rw [str, str, same]

/-- What `strncpy` leaves in a field of `n` bytes. -/
def strncpy (n : Nat) (s : List UInt8) : List UInt8 := (s ++ List.replicate n 0).take n

@[simp] theorem length_strncpy (n : Nat) (s : List UInt8) : (strncpy n s).length = n := by
  rw [strncpy, List.length_take, List.length_append, List.length_replicate]
  omega

/-! ## Strings in objects -/

/-- `strlen` of what an object holds from some place on. It has no result when
    the object ends before the string does. -/
def strlen (s : List UInt8) : Option Nat := s.findIdx? (· == 0)

section Strlen

variable {s : List UInt8} {n : Nat}

theorem strlen_eq_none_iff : strlen s = none ↔ 0 ∉ s := by
  rw [strlen, List.findIdx?_eq_none_iff]
  constructor
  · exact fun all member => Bool.noConfusion (all 0 member)
  · exact fun absent b member => beq_eq_false_iff_ne.mpr (ne_of_mem_of_not_mem member absent)

theorem exists_strlen (ends : 0 ∈ s) : ∃ n, strlen s = some n :=
  Option.ne_none_iff_exists'.mp fun endless => strlen_eq_none_iff.mp endless ends

theorem strlen_append (ends : strlen s = some n) (rest : List UInt8) :
    strlen (s ++ rest) = some n := by
  rw [strlen, List.findIdx?_append, show s.findIdx? (· == 0) = some n from ends, Option.some_or]

theorem strlen_lt (ends : strlen s = some n) : n < s.length :=
  (List.findIdx?_eq_some_iff_getElem.mp ends).1

theorem take_strlen (ends : strlen s = some n) : s.take n = s.takeWhile (· ≠ 0) := by
  induction s generalizing n with
  | nil => cases ends
  | cons b s ih =>
      rw [strlen, List.findIdx?_cons] at ends
      by_cases zero : b = 0
      · rw [if_pos (beq_iff_eq.mpr zero)] at ends
        cases ends
        simp [zero]
      · rw [if_neg (by simpa using zero)] at ends
        obtain ⟨m, later, rfl⟩ := Option.map_eq_some_iff.mp ends
        rw [List.take_succ_cons, ih later]
        simp [zero]

end Strlen

/-- The string at place `i` of an object. -/
def strAt (o : List UInt8) (i : Nat) : List UInt8 := (o.drop i).takeWhile (· ≠ 0)

section StrAt

variable {o : List UInt8} {i n : Nat}

theorem take_drop_strlen (ends : strlen (o.drop i) = some n) : (o.drop i).take n = strAt o i :=
  take_strlen ends

theorem length_strAt (ends : strlen (o.drop i) = some n) : (strAt o i).length = n := by
  rw [← take_drop_strlen ends, List.length_take_of_le (Nat.le_of_lt (strlen_lt ends))]

theorem drop_append_of_mem (ends : 0 ∈ o.drop i) (rest : List UInt8) :
    (o ++ rest).drop i = o.drop i ++ rest := by
  have inside := List.length_pos_of_mem ends
  rw [List.length_drop] at inside
  exact List.drop_append_of_le_length (by omega)

theorem strAt_append (ends : 0 ∈ o.drop i) (rest : List UInt8) :
    strAt (o ++ rest) i = strAt o i := by
  obtain ⟨len, measured⟩ := exists_strlen ends
  have short := strlen_lt measured
  rw [strAt, drop_append_of_mem ends, ← take_strlen (strlen_append measured rest),
    List.take_append_of_le_length (Nat.le_of_lt short), take_strlen measured, strAt]

theorem strAt_zero (first : o[i]? = some 0) : strAt o i = [] ∧ 0 ∈ o.drop i := by
  obtain ⟨inside, zero⟩ := List.getElem?_eq_some_iff.mp first
  rw [strAt, List.drop_eq_getElem_cons inside, zero]
  exact ⟨rfl, List.mem_cons_self⟩

theorem strAt_ne_nil {b : UInt8} (first : o[i]? = some b) (nonzero : b ≠ 0) : strAt o i ≠ [] := by
  obtain ⟨inside, rfl⟩ := List.getElem?_eq_some_iff.mp first
  rw [strAt, List.drop_eq_getElem_cons inside, List.takeWhile_cons, if_pos (decide_eq_true nonzero)]
  exact List.cons_ne_nil _ _

end StrAt

end PtzAgx.CString
