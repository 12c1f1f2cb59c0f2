import AccountService.Proofs.Pipeline.Ensures
import AccountService.Proofs.Pipeline.Outcome

/-!
# Actions that do no harm

An action does no harm if it leaves metrics and signal alone, does not end abruptly, and fails
only with errors that neither stop the service nor are answered as a success.

## Main definitions

* `Pipeline.Error.Mild` — the errors that leave the service as it is
* `Pipeline.Error.Reproaches` — those among them that find fault with the request
* `Pipeline.Harmless` — actions that do no harm, and what their results satisfy

## Main statements

* `Pipeline.enduring_spares` — no handler changes metrics or signal
* `Pipeline.Error.mild_ofAuth` — refusals are mild
* `Pipeline.Error.reproaches_ofAuth`, `Pipeline.Error.reproaches_ofForbidden` — and whoever is
  refused is at fault
-/

namespace AccountService.Pipeline

open Http

variable {σ α : Type}

/-- An error that neither stops the service nor is answered as a success. -/
def Error.Mild (e : Error) : Prop := e.isFatal = false ∧ 400 ≤ (statusOf e).code

/-- An error that finds fault with the request, and not with the service: it is shown to the caller
with a status that says so. -/
def Error.Reproaches (e : Error) : Prop :=
  ∃ q, e = .request q ∧ 400 ≤ q.status.code ∧ q.status.code < 500

/-- An action does no harm to the metrics and the signal of a state `z`: wherever they are as in
`z` it leaves them so, and it ends in a result that satisfies `post` or in a mild error. -/
def Harmless (z : Exchange σ) (a : Action σ α) (post : α → Prop) : Prop :=
  ∀ x, Spares z x → Spares z (exec a x).2 ∧
    ((∃ v, (exec a x).1 = .ok v ∧ post v) ∨ ∃ e : Error, (exec a x).1 = .error (.error e) ∧ e.Mild)

variable {z : Exchange σ}

/-- What handlers do to a state leaves metrics and signal alone. -/
theorem enduring_spares : Enduring (fun _ => True) (Spares z) :=
  ⟨fun _ hx => hx, fun _ hx => hx, fun _ _ hx => hx⟩

theorem Ensures.harmless {a : Action σ α} {post : α → Prop}
    (h : Ensures (Spares z) Error.Mild a fun v _ => post v) : Harmless z a post := h

theorem Error.mild_ofAuth (e : Auth.Error) : (Error.ofAuth e).Mild := by
  cases e <;> exact ⟨rfl, of_decide_eq_true rfl⟩

theorem Error.Reproaches.mild {e : Error} (h : e.Reproaches) : e.Mild := by
  obtain ⟨q, rfl, hcode, -⟩ := h
  exact ⟨rfl, hcode⟩

theorem Error.reproaches_ofAuth {e : Auth.Error} (h : e.status = .unauthorized) :
    (Error.ofAuth e).Reproaches := by
  have hstatus : e.toRequest.status = .unauthorized := (Auth.Error.status_toRequest e).trans h
  exact ⟨_, rfl, hstatus ▸ by decide, hstatus ▸ by decide⟩

theorem Error.reproaches_ofForbidden (f : Auth.Forbidden) : (Error.ofForbidden f).Reproaches :=
  ⟨_, rfl, of_decide_eq_true rfl, of_decide_eq_true rfl⟩

end AccountService.Pipeline
