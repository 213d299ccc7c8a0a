import Mathlib.Data.List.Basic
import Scaffold.Meta.Server

/-! # The last good model

A server serves the model of the last reload that brought one, and before that the model it was
started with. A reload that fails changes nothing, nor does one that is not set up. Whatever is
told about the model is what a server would tell that was just started with it, so nothing of an
earlier model is left. -/
namespace Scaffold.Meta

open Scaffold.Model

/-- What a successful reload leaves behind: the model that it brought, loaded when it was asked
for. -/
def Event.loads? (e : Event) : Option Server :=
  match e.request.route, e.outcome with
  | .endpoint .reload, some (.ok a) => some ⟨a, e.now⟩
  | _, _ => none

/-- What the last successful reload of a history left behind, or else the server at its start. -/
def lastGood (s : Server) (es : List Event) : Server :=
  (es.reverse.findSome? Event.loads?).getD s

/-- Whether the answer to a request is about the model alone. -/
def Request.asksModel (r : Request) : Bool :=
  r.route ≠ .endpoint .health && r.route ≠ .endpoint .reload

theorem lastGood_concat (s : Server) (es : List Event) (e : Event) :
    lastGood s (es ++ [e]) = e.loads?.getD (lastGood s es) := by
  cases h : e.loads? <;> simp [lastGood, h]

theorem lastGood_append (s : Server) (es fs : List Event) :
    lastGood s (es ++ fs) = lastGood (lastGood s es) fs := by
  cases h : fs.reverse.findSome? Event.loads? <;> simp [lastGood, List.findSome?_append, h]

/-! ## One request -/

theorem loads?_eq_some {e : Event} {t : Server} : e.loads? = some t ↔
    e.request.route = .endpoint .reload ∧ e.outcome = some (.ok t.app) ∧ t.loadedAt = e.now := by
  constructor
  · intro h
    unfold Event.loads? at h
    split at h
    next a hroute houtcome =>
      cases h
      exact ⟨hroute, houtcome, rfl⟩
    next => cases h
  · rintro ⟨hroute, houtcome, hnow⟩
    simp only [Event.loads?, hroute, houtcome, ← hnow]

/-- A request loads nothing unless it is a reload that brings a model. -/
theorem loads?_eq_none {e : Event} : e.loads? = none ↔
    e.request.route ≠ .endpoint .reload ∨ ∀ a, e.outcome ≠ some (.ok a) := by
  constructor
  · intro h
    by_contra hboth
    simp only [not_or, not_not, not_forall] at hboth
    obtain ⟨hroute, a, houtcome⟩ := hboth
    have hloads : e.loads? = some ⟨a, e.now⟩ := loads?_eq_some.mpr ⟨hroute, houtcome, rfl⟩
    exact absurd (h.symm.trans hloads) (by simp)
  · intro h
    cases hloads : e.loads? with
    | none => rfl
    | some t =>
      obtain ⟨hroute, houtcome, -⟩ := loads?_eq_some.mp hloads
      exact (h.elim (· hroute) (· _ houtcome)).elim

/-- After a request the server is what a successful reload left, or what it was. -/
theorem handle_server (s : Server) (e : Event) : (s.handle e).2 = e.loads?.getD s := by
  by_cases hroute : e.request.route = .endpoint .reload
  · rcases houtcome : e.outcome with _ | _ | a <;>
      simp [Server.handle, Server.reload, Event.loads?, hroute, houtcome]
  · rw [loads?_eq_none.mpr (.inl hroute), Server.handle]
    cases h : e.request.route with
    | endpoint x =>
      cases x with
      | reload => exact absurd h hroute
      | _ => rfl
    | redirect path => rfl
    | missing => rfl

/-- Answers of an endpoint that is about the model alone are those of any server that holds it. -/
theorem answer_app (s t : Server) (happ : s.app = t.app) {x : Endpoint} (h : x ≠ .health) :
    s.answer x = t.answer x := by
  cases x with
  | health => exact absurd rfl h
  | _ => simp only [Server.answer, happ]

/-- What a request about the model is answered depends on no more than the model and the request. -/
theorem handle_app {s t : Server} (happ : s.app = t.app) {e f : Event}
    (hrequest : e.request = f.request) (h : e.request.asksModel = true) :
    (s.handle e).1 = (t.handle f).1 := by
  simp only [Request.asksModel, Bool.and_eq_true, decide_eq_true_eq] at h
  obtain ⟨hhealth, hreload⟩ := h
  unfold Server.handle
  rw [← hrequest]
  cases hroute : e.request.route with
  | endpoint x =>
    have hx : x ≠ .health := fun heq => hhealth (hroute.trans (congrArg Route.endpoint heq))
    cases x with
    | reload => exact absurd hroute hreload
    | _ =>
      dsimp only
      exact answer_app s t happ hx
  | redirect path => rfl
  | missing => rfl

/-! ## A history of requests -/

theorem run_append (s : Server) (es fs : List Event) :
    s.run (es ++ fs) = ((s.run es).1 ++ ((s.run es).2.run fs).1, ((s.run es).2.run fs).2) := by
  induction es generalizing s with
  | nil => rfl
  | cons e es ih => simp only [List.cons_append, Server.run, ih]

theorem length_run (s : Server) (es : List Event) : (s.run es).1.length = es.length := by
  induction es generalizing s with
  | nil => rfl
  | cons e es ih => simp only [Server.run, List.length_cons, ih]

/-- A history leaves the server that its last successful reload left. -/
theorem run_server (s : Server) (es : List Event) : (s.run es).2 = lastGood s es := by
  induction es generalizing s with
  | nil => rfl
  | cons e es ih =>
    have hstart : lastGood s [e] = (s.handle e).2 := by
      rw [handle_server]
      exact lastGood_concat s [] e
    calc (s.run (e :: es)).2 = ((s.handle e).2.run es).2 := rfl
      _ = lastGood (lastGood s [e]) es := by rw [ih, hstart]
      _ = lastGood s (e :: es) := (lastGood_append s [e] es).symm

/-- A request in the middle of a history is answered by what the history before it left. -/
theorem run_answer (s : Server) {es : List Event} {n : Nat} {e : Event} (h : es[n]? = some e) :
    (s.run es).1[n]? = some ((lastGood s (es.take n)).handle e).1 := by
  obtain ⟨hn, rfl⟩ := List.getElem?_eq_some_iff.mp h
  have hsplit : es = es.take n ++ es[n] :: es.drop (n + 1) := by simp
  have hlength : (s.run (es.take n)).1.length = n := by
    rw [length_run, List.length_take_of_le (Nat.le_of_lt hn)]
  have hrun : (s.run es).1 = (s.run (es.take n)).1 ++
      ((s.run (es.take n)).2.run (es[n] :: es.drop (n + 1))).1 := by
    calc (s.run es).1 = (s.run (es.take n ++ es[n] :: es.drop (n + 1))).1 := by rw [← hsplit]
      _ = _ := by rw [run_append]
  rw [hrun, List.getElem?_append_right (Nat.le_of_eq hlength), hlength, Nat.sub_self, run_server]
  rfl

/-- Throughout a history of requests, whatever the reloads bring: before and after each request the
server is the one that the last successful reload left. A reload that succeeds puts its model in
place; one that fails or is not set up, and any other request, leaves the model and its time alone.
What is asked about the model is answered as by any server that holds this model, however it was
started, and the health check tells of the last good model. -/
theorem run_serves_lastGood (s : Server) (es : List Event) :
    (s.run es).1.length = es.length ∧
    (∀ n, (s.run (es.take n)).2 = lastGood s (es.take n)) ∧
    ∀ n e, es[n]? = some e →
      (∀ a, e.request.route = .endpoint .reload → e.outcome = some (.ok a) →
        (s.run (es.take (n + 1))).2 = ⟨a, e.now⟩) ∧
      ((e.request.route ≠ .endpoint .reload ∨ ∀ a, e.outcome ≠ some (.ok a)) →
        (s.run (es.take (n + 1))).2 = (s.run (es.take n)).2) ∧
      (e.request.asksModel = true → ∀ loadedAt now outcome, (s.run es).1[n]? =
        some ((Server.mk (lastGood s (es.take n)).app loadedAt).handle
          ⟨e.request, now, outcome⟩).1) ∧
      (e.request.route = .endpoint .health → (s.run es).1[n]? =
        some (.json 200 (healthView (lastGood s (es.take n))))) := by
  refine ⟨length_run s es, fun n => run_server s _, fun n e he => ?_⟩
  have htake : es.take (n + 1) = es.take n ++ [e] := by rw [List.take_add_one, he]; rfl
  have hnext : (s.run (es.take (n + 1))).2 = e.loads?.getD (s.run (es.take n)).2 := by
    rw [run_server, run_server, htake, lastGood_concat]
  refine ⟨?_, ?_, ?_, ?_⟩
  · intro a hroute houtcome
    have hloads : e.loads? = some ⟨a, e.now⟩ := loads?_eq_some.mpr ⟨hroute, houtcome, rfl⟩
    rw [hnext, hloads]
    rfl
  · intro hnone
    rw [hnext, loads?_eq_none.mpr hnone]
    rfl
  · intro hasks loadedAt now outcome
    rw [run_answer s he]
    have happ : (lastGood s (es.take n)).app =
        (Server.mk (lastGood s (es.take n)).app loadedAt).app := rfl
    exact congrArg some (handle_app happ rfl hasks)
  · intro hroute
    rw [run_answer s he, Server.handle, hroute]
    rfl

end Scaffold.Meta
