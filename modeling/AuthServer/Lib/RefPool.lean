/-
A pool of reference-counted objects.

Who holds which object is a list, one entry for each reference.  The pool is
counted when every count is the number of references and every object that was
taken out has come back once for each time, except while it is held.  Taking,
sharing and giving back each keep that, and giving back the last reference is
what returns an object.

Nothing here depends on what the objects are.
-/

import Mathlib.Data.List.Count
import Mathlib.Logic.Function.Basic

set_option autoImplicit false

namespace RefPool

universe u

structure Pool (Object : Type u) where
  ref : Object → Int
  allocs : Object → Nat
  frees : Object → Nat

variable {Object : Type u} [DecidableEq Object]

namespace Pool

def acquire (pool : Pool Object) (object : Object) : Pool Object :=
  { pool with
    ref := Function.update pool.ref object 1
    allocs := Function.update pool.allocs object (pool.allocs object + 1) }

def retain (pool : Pool Object) (object : Object) : Pool Object :=
  { pool with ref := Function.update pool.ref object (pool.ref object + 1) }

def release (pool : Pool Object) (object : Object) : Pool Object :=
  { pool with
    ref := Function.update pool.ref object (pool.ref object - 1)
    frees :=
      if pool.ref object - 1 = 0 then
        Function.update pool.frees object (pool.frees object + 1)
      else pool.frees }

end Pool

structure Counted (references : List Object) (pool : Pool Object) : Prop where
  ref : ∀ object, pool.ref object = references.count object
  returned : ∀ object,
    pool.allocs object = pool.frees object + if pool.ref object = 0 then 0 else 1

namespace Counted

variable {references : List Object} {pool : Pool Object}

theorem perm (counted : Counted references pool) (others : List Object)
    (same : references.Perm others) : Counted others pool :=
  ⟨fun object => by rw [counted.ref, same.count_eq], counted.returned⟩

theorem ref_eq_zero_iff (counted : Counted references pool) (object : Object) :
    pool.ref object = 0 ↔ object ∉ references := by
  rw [counted.ref, Int.natCast_eq_zero, List.count_eq_zero]

theorem acquire (counted : Counted references pool) (object : Object)
    (free : pool.ref object = 0) : Counted (object :: references) (pool.acquire object) := by
  have absent : references.count object = 0 :=
    List.count_eq_zero.mpr ((counted.ref_eq_zero_iff object).mp free)
  constructor
  · intro other
    by_cases same : other = object
    · subst same
      simp only [Pool.acquire, Function.update_self, List.count_cons_self, absent]
      rfl
    · simp only [Pool.acquire, Function.update_of_ne same, List.count_cons_of_ne (Ne.symm same),
        counted.ref]
  · intro other
    by_cases same : other = object
    · subst same
      have returned := counted.returned other
      rw [if_pos free] at returned
      simp only [Pool.acquire, Function.update_self, returned]
      rfl
    · simp only [Pool.acquire, Function.update_of_ne same, counted.returned]

theorem retain (counted : Counted references pool) (object : Object)
    (held : object ∈ references) : Counted (object :: references) (pool.retain object) := by
  have positive : pool.ref object ≠ 0 := fun zero =>
    (counted.ref_eq_zero_iff object).mp zero held
  constructor
  · intro other
    by_cases same : other = object
    · subst same
      simp only [Pool.retain, Function.update_self, List.count_cons_self, counted.ref]
      omega
    · simp only [Pool.retain, Function.update_of_ne same, List.count_cons_of_ne (Ne.symm same),
        counted.ref]
  · intro other
    by_cases same : other = object
    · subst same
      have returned := counted.returned other
      have counts := counted.ref other
      rw [if_neg positive] at returned
      simp only [Pool.retain, Function.update_self]
      rw [if_neg (by omega)]
      exact returned
    · simp only [Pool.retain, Function.update_of_ne same, counted.returned]

theorem release {object : Object} (counted : Counted (object :: references) pool) :
    Counted references (pool.release object) := by
  have counts : pool.ref object = references.count object + 1 := by
    rw [counted.ref, List.count_cons_self]
    rfl
  constructor
  · intro other
    by_cases same : other = object
    · subst same
      simp only [Pool.release, Function.update_self]
      omega
    · simp only [Pool.release, Function.update_of_ne same, counted.ref,
        List.count_cons_of_ne (Ne.symm same)]
  · intro other
    have returned := counted.returned other
    by_cases same : other = object
    · subst same
      rw [if_neg (by omega)] at returned
      simp only [Pool.release, Function.update_self]
      by_cases last : pool.ref other - 1 = 0
      · simp only [if_pos last, Function.update_self]
        exact returned
      · simp only [if_neg last]
        exact returned
    · have sameFrees : (pool.release object).frees other = pool.frees other := by
        simp only [Pool.release]
        split
        · rw [Function.update_of_ne same]
        · rfl
      have sameRef : (pool.release object).ref other = pool.ref other :=
        Function.update_of_ne same _ _
      rw [sameFrees, sameRef]
      exact returned

end Counted

end RefPool
