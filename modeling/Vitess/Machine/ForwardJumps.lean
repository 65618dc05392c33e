import Mathlib.Data.List.Basic

/-!
# Code with forward jumps

A program is a list of instructions run from its first; an instruction either
fails, or changes the state and says how many of the instructions after it to
skip (`0` to fall through). A run that passes the last instruction stops. This is
the loop `for ip < len(code) { ip += code[ip](env) }` of a virtual machine whose
instructions return the offset of the next one, read on the suffix of the code
from `ip`.

Compiled code for a construct is a block that the code of an enclosing
construct surrounds, and its jumps never leave it. `Passes code s s'` says that
running `code` from `s` reaches whatever follows it in state `s'`, and
`Fails code s f` that it fails with `f` first. Both compose along `++`, so the
code a compiler emits for a construct is shown to pass or fail from the same
facts about the code of its parts, whatever surrounds it.
-/

namespace Vitess.Machine

variable {ι σ φ : Type*} (step : ι → σ → Except φ (σ × ℕ))

/-- Run `code` from state `s`. -/
def exec : List ι → σ → Except φ σ
  | [], s => .ok s
  | i :: rest, s =>
    match step i s with
    | .error f => .error f
    | .ok (s', skip) => exec (rest.drop skip) s'
termination_by code => code.length
decreasing_by
  simp only [List.length_drop, List.length_cons]
  omega

/-- Running `code` from `s` reaches what follows it in state `s'`. -/
def Passes (code : List ι) (s s' : σ) : Prop :=
  ∀ rest, exec step (code ++ rest) s = exec step rest s'

/-- Running `code` from `s` fails with `f` before reaching what follows it. -/
def Fails (code : List ι) (s : σ) (f : φ) : Prop :=
  ∀ rest, exec step (code ++ rest) s = .error f

/-- From `s`, `code` runs as `code'` does, whatever follows them: a check
that falls through runs as the block after it. -/
def RunsAs (code code' : List ι) (s : σ) : Prop :=
  ∀ rest, exec step (code ++ rest) s = exec step (code' ++ rest) s

variable {step}

theorem exec_cons_of_ok {i : ι} {rest : List ι} {s s' : σ} {skip : ℕ}
    (stepped : step i s = .ok (s', skip)) :
    exec step (i :: rest) s = exec step (rest.drop skip) s' := by
  rw [exec, stepped]

theorem exec_cons_of_error {i : ι} {rest : List ι} {s : σ} {f : φ}
    (failed : step i s = .error f) : exec step (i :: rest) s = .error f := by
  rw [exec, failed]

theorem passes_nil (s : σ) : Passes step [] s s :=
  fun _ => rfl

/-- An instruction that falls through. -/
theorem passes_single {i : ι} {s s' : σ} (stepped : step i s = .ok (s', 0)) :
    Passes step [i] s s' := by
  intro rest
  rw [List.singleton_append, exec_cons_of_ok stepped, List.drop_zero]

/-- An instruction that jumps over the rest of its block. -/
theorem passes_jump {i : ι} {skipped : List ι} {s s' : σ}
    (stepped : step i s = .ok (s', skipped.length)) : Passes step (i :: skipped) s s' := by
  intro rest
  rw [List.cons_append, exec_cons_of_ok stepped, List.drop_left]

theorem fails_single {i : ι} {s : σ} {f : φ} (failed : step i s = .error f) :
    Fails step [i] s f := by
  intro rest
  rw [List.singleton_append, exec_cons_of_error failed]

theorem Passes.append {a b : List ι} {s s' s'' : σ} (first : Passes step a s s')
    (second : Passes step b s' s'') : Passes step (a ++ b) s s'' := by
  intro rest
  rw [List.append_assoc, first, second]

theorem Fails.append {a b : List ι} {s : σ} {f : φ} (first : Fails step a s f) :
    Fails step (a ++ b) s f := by
  intro rest
  rw [List.append_assoc, first]

theorem Passes.append_fails {a b : List ι} {s s' : σ} {f : φ} (first : Passes step a s s')
    (second : Fails step b s' f) : Fails step (a ++ b) s f := by
  intro rest
  rw [List.append_assoc, first, second]

/-- An instruction that falls through, then a block. -/
theorem Passes.cons {i : ι} {rest : List ι} {s s' s'' : σ} (stepped : step i s = .ok (s', 0))
    (after : Passes step rest s' s'') : Passes step (i :: rest) s s'' :=
  (passes_single stepped).append after

/-- An instruction that falls through, then a block that fails. -/
theorem Fails.cons {i : ι} {rest : List ι} {s s' : σ} {f : φ} (stepped : step i s = .ok (s', 0))
    (after : Fails step rest s' f) : Fails step (i :: rest) s f :=
  (passes_single stepped).append_fails after

theorem runsAs_refl (code : List ι) (s : σ) : RunsAs step code code s :=
  fun _ => rfl

theorem runsAs_cons {i : ι} {code : List ι} {s : σ} (stepped : step i s = .ok (s, 0)) :
    RunsAs step (i :: code) code s := by
  intro rest
  rw [List.cons_append, exec_cons_of_ok stepped, List.drop_zero]

theorem RunsAs.passes {code code' : List ι} {s s' : σ} (runs : RunsAs step code code' s)
    (passes : Passes step code' s s') : Passes step code s s' := by
  intro rest
  rw [runs, passes]

theorem RunsAs.fails {code code' : List ι} {s : σ} {f : φ} (runs : RunsAs step code code' s)
    (fails : Fails step code' s f) : Fails step code s f := by
  intro rest
  rw [runs, fails]

theorem Passes.exec_eq {code : List ι} {s s' : σ} (passes : Passes step code s s') :
    exec step code s = .ok s' := by
  simpa [exec] using passes []

theorem Fails.exec_eq {code : List ι} {s : σ} {f : φ} (fails : Fails step code s f) :
    exec step code s = .error f := by
  simpa using fails []

/-! ## Steps that return `Except` -/

section Except

universe u v

variable {ε : Type u} {α β γ : Type v}

@[simp]
theorem except_bind_ok (a : α) (f : α → Except ε β) :
    (Except.ok a >>= f) = f a := rfl

@[simp]
theorem except_pure (a : α) : (pure a : Except ε α) = .ok a := rfl

@[simp]
theorem except_map_ok (a : α) (f : α → β) : (Except.ok a : Except ε α).map f = .ok (f a) := rfl

@[simp]
theorem except_map_error (f : α → β) (e : ε) : (Except.error e : Except ε α).map f = .error e :=
  rfl

@[simp]
theorem except_bind_ok_map (x : Except ε α) (f : α → β) : (x >>= fun a => .ok (f a)) = x.map f := by
  cases x <;> rfl

@[simp]
theorem except_map_map (x : Except ε α) (f : α → β) (g : β → γ) :
    (x.map f).map g = x.map (g ∘ f) := by
  cases x <;> rfl

end Except

end Vitess.Machine
