import Mathlib.Data.List.Basic
import Mathlib.Data.List.Infix

/-! Calls to an environment that may answer each of them with regard to all calls before it. The calls
made so far are a list that only grows; what the environment promises, it promises of the histories on
the way. -/

namespace CallHistory

variable {κ : Type*} {P P' Q : κ → Prop} {s t u : List κ}

/-- From `s` to `t` further calls are made, all of them `P`. -/
def Extends (P : κ → Prop) (s t : List κ) : Prop := ∃ es, t = s ++ es ∧ ∀ e ∈ es, P e

theorem Extends.refl (s : List κ) : Extends P s s :=
  ⟨[], (List.append_nil s).symm, fun _ he => absurd he List.not_mem_nil⟩

theorem Extends.snoc {c : κ} (hc : P c) : Extends P s (s ++ [c]) :=
  ⟨[c], rfl, fun _ he => by rwa [List.mem_singleton.mp he]⟩

theorem Extends.trans (hst : Extends P s t) (htu : Extends P t u) : Extends P s u := by
  obtain ⟨es, rfl, hes⟩ := hst
  obtain ⟨es', rfl, hes'⟩ := htu
  refine ⟨es ++ es', List.append_assoc s es es', ?_⟩
  intro e he
  exact (List.mem_append.mp he).elim (hes e) (hes' e)

theorem Extends.imp (h : Extends P s t) (himp : ∀ c, P c → P' c) : Extends P' s t := by
  obtain ⟨es, hes, hall⟩ := h
  exact ⟨es, hes, fun e he => himp e (hall e he)⟩

theorem Extends.isPrefix (h : Extends P s t) : s <+: t := by
  obtain ⟨es, rfl, -⟩ := h
  exact List.prefix_append s es

/-- A call of the kind `Q` has been made. -/
def Made (Q : κ → Prop) (calls : List κ) : Prop := ∃ c ∈ calls, Q c

theorem not_made_nil : ¬ Made Q [] := fun ⟨_, hc, _⟩ => List.not_mem_nil hc

theorem made_snoc {c : κ} : Made Q (s ++ [c]) ↔ Made Q s ∨ Q c := by
  simp only [Made, List.mem_append, List.mem_singleton]
  constructor
  · rintro ⟨d, hd | rfl, hQ⟩
    · exact Or.inl ⟨d, hd, hQ⟩
    · exact Or.inr hQ
  · rintro (⟨d, hd, hQ⟩ | hQ)
    · exact ⟨d, Or.inl hd, hQ⟩
    · exact ⟨c, Or.inr rfl, hQ⟩

theorem Extends.made_iff (h : Extends (fun c => ¬ Q c) s t) : Made Q t ↔ Made Q s := by
  obtain ⟨es, rfl, hes⟩ := h
  constructor
  · rintro ⟨c, hc, hQ⟩
    rcases List.mem_append.mp hc with hc | hc
    · exact ⟨c, hc, hQ⟩
    · exact absurd hQ (hes c hc)
  · rintro ⟨c, hc, hQ⟩
    exact ⟨c, List.mem_append_left es hc, hQ⟩

/-- The last opening call has no closing call behind it. -/
def Pending (opens closes : κ → Prop) (calls : List κ) : Prop :=
  ∃ earlier c later, calls = earlier ++ c :: later ∧ opens c ∧ ¬ Made closes later

variable {opens closes : κ → Prop}

theorem pending_snoc {c : κ} :
    Pending opens closes (s ++ [c]) ↔ opens c ∨ (Pending opens closes s ∧ ¬ closes c) := by
  constructor
  · rintro ⟨earlier, d, later, heq, hopens, hcloses⟩
    rcases List.eq_nil_or_concat later with rfl | ⟨later, e, rfl⟩
    · obtain ⟨rfl, hcd⟩ := List.append_inj' heq rfl
      obtain rfl := List.singleton_inj.mp hcd
      exact Or.inl hopens
    · rw [List.concat_eq_append, ← List.cons_append, ← List.append_assoc] at heq
      obtain ⟨rfl, hce⟩ := List.append_inj' heq rfl
      obtain rfl := List.singleton_inj.mp hce
      rw [List.concat_eq_append, made_snoc, not_or] at hcloses
      exact Or.inr ⟨⟨earlier, d, later, rfl, hopens, hcloses.1⟩, hcloses.2⟩
  · rintro (hopens | ⟨⟨earlier, d, later, rfl, hopens, hcloses⟩, hlast⟩)
    · exact ⟨s, c, [], rfl, hopens, not_made_nil⟩
    · refine ⟨earlier, d, later ++ [c], by simp, hopens, ?_⟩
      rw [made_snoc, not_or]
      exact ⟨hcloses, hlast⟩

/-- Other calls change nothing about it. -/
theorem Extends.pending_iff (h : Extends (fun c => ¬ opens c ∧ ¬ closes c) s t) :
    Pending opens closes t ↔ Pending opens closes s := by
  obtain ⟨es, rfl, hes⟩ := h
  induction es using List.reverseRecOn with
  | nil => rw [List.append_nil]
  | append_singleton es e ih =>
      obtain ⟨hopens, hcloses⟩ := hes e (List.mem_append_right es (List.mem_singleton.mpr rfl))
      rw [← List.append_assoc, pending_snoc, or_iff_right hopens, and_iff_left hcloses]
      exact ih fun d hd => hes d (List.mem_append_left [e] hd)

/-- `H` holds of every history on the way to `calls`. -/
def Throughout (H : List κ → Prop) (calls : List κ) : Prop := ∀ before, before <+: calls → H before

/-- On the way to `whole`, no call between `s` and `t` is a `Q`. -/
def Spares (Q : κ → Prop) (whole s t : List κ) : Prop := t <+: whole → Extends (fun c => ¬ Q c) s t

variable {whole : List κ}

theorem Spares.refl (s : List κ) : Spares Q whole s s := fun _ => .refl s

theorem Spares.trans (hst : Spares Q whole s t) (htu : Spares Q whole t u) : Spares Q whole s u := by
  intro hu
  have htail := htu hu
  exact (hst (htail.isPrefix.trans hu)).trans htail

theorem Spares.of_extends (h : Extends (fun c => ¬ Q c) s t) : Spares Q whole s t := fun _ => h

end CallHistory
