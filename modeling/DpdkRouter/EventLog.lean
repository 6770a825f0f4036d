import Mathlib.Tactic.Common

/-!
Calls recorded in a log. A computation of `StateM σ` whose state carries a
log (`log : σ → List E`) appends events of a kind `P` when, from every
state, it only adds events with `P` at the end of the log. The rules follow
the shape of a `do` block: `pure`, an update that leaves the log alone,
`bind` and `if`; a loop is an induction over `bind`.
-/

namespace EventLog

variable {σ E α β : Type}

/-- From every state, `f` adds to the log only events with `P`, at its end. -/
def Appends (log : σ → List E) (f : StateM σ α) (P : E → Prop) : Prop :=
  ∀ s, ∃ evs, log (f.run s).2 = log s ++ evs ∧ ∀ e ∈ evs, P e

variable {log : σ → List E} {P Q : E → Prop}

theorem appends_of_log_eq {f : StateM σ α} (h : ∀ s, log (f.run s).2 = log s) : Appends log f P :=
  fun s => ⟨[], by rw [h, List.append_nil], fun _ he => absurd he List.not_mem_nil⟩

theorem appends_pure (a : α) : Appends log (pure a : StateM σ α) P :=
  appends_of_log_eq fun _ => rfl

theorem Appends.bind {f : StateM σ α} {g : α → StateM σ β} (hf : Appends log f P)
    (hg : ∀ a, Appends log (g a) P) : Appends log (f >>= g) P := by
  intro s
  obtain ⟨evs₁, hlog₁, hP₁⟩ := hf s
  obtain ⟨evs₂, hlog₂, hP₂⟩ := hg (f.run s).1 (f.run s).2
  refine ⟨evs₁ ++ evs₂, ?_, ?_⟩
  · show log ((g (f.run s).1).run (f.run s).2).2 = _
    rw [hlog₂, hlog₁, List.append_assoc]
  · intro e he
    rcases List.mem_append.mp he with he | he
    · exact hP₁ e he
    · exact hP₂ e he

theorem appends_ite {c : Prop} [Decidable c] {f g : StateM σ α} (hf : c → Appends log f P)
    (hg : ¬c → Appends log g P) : Appends log (if c then f else g) P := by
  by_cases h : c
  · rw [if_pos h]
    exact hf h
  · rw [if_neg h]
    exact hg h

theorem Appends.mono {f : StateM σ α} (h : Appends log f P) (hPQ : ∀ e, P e → Q e) : Appends log f Q := by
  intro s
  obtain ⟨evs, hlog, hP⟩ := h s
  exact ⟨evs, hlog, fun e he => hPQ e (hP e he)⟩

end EventLog
