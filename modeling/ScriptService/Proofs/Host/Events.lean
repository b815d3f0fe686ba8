import ScriptService.Proofs.Host.Turns

/-!
# Events and parts

An event makes the host run one part or none. What the host does before and after it is the same few
changes for all events, so a relation between hosts that does not see those changes has only to deal
with the part.

Main statement: `Host.Bookkeeping.dispatch`.
-/

namespace ScriptService.Host

/-- A relation that does not see what a host does around the parts that its events make it run. -/
structure Bookkeeping (R : Host → Host → Prop) : Prop where
  refl : ∀ h, R h h
  trans : ∀ {k g h}, R k g → R g h → R k h
  timers : ∀ h timers, R (h.withTimers timers) h
  children : ∀ h children, R (h.withResources fun r => { r with children }) h
  asked : ∀ h code, R (h.withResources fun r => r.requestExit code) h
  diagnosed : ∀ h d, R (h.inWorld fun w => w.note (.diagnostic d)) h
  replied : ∀ (h : Host) client, R { h with client } h

/-- What an event makes of a host: it runs the part of the event, if there is one. -/
inductive Handles (R : Host → Host → Prop) (h : Host) : Option (Part × Host) → Host → Prop where
  | quiet {g : Host} (hg : R g h) : Handles R h none g
  | ran {part : Part} {l g : Host} (hpart : part.dispatched = true) (hl : R l h)
      (hg : R g (part.run l).2) : Handles R h (some (part, l)) g

namespace Bookkeeping

variable {R : Host → Host → Prop} (hR : Bookkeeping R) {h g : Host}

include hR

theorem report (h : Host) (site : String) (e : ScriptError) : R (h.report site e) h := by
  cases e with
  | exit code => exact hR.asked h code
  | compile => exact hR.diagnosed h _
  | exception text => exact hR.diagnosed h _

theorem noteSent (h : Host) (sent : Bool) (id : RequestId) : R (h.noteSent sent id) h := by
  unfold Host.noteSent
  split
  · exact hR.refl h
  · exact hR.diagnosed h _

/-- A callback that gives nothing back is a part whose failure is reported. -/
theorem calls {site : String} {f : Callback} {args held : List Value}
    (hcalls : Calls h site f args held g) {part : Part}
    (hcode : h.call f args held = h.perform (part.code Resources Resources.natives)) :
    R g (part.run h).2 := by
  cases hcalls with
  | returned v _ hcall =>
    rw [← Part.eq_run part (hcode ▸ hcall)]
    exact hR.refl g
  | failed e next hcall =>
    rw [← Part.eq_run part (hcode ▸ hcall)]
    exact hR.report next site e

theorem fireTimer (h : Host) (id : Nat) : Handles R h (h.partOf (.timer id)) (h.fireTimer id) := by
  have hfires := h.fires id
  generalize h.fireTimer id = g at hfires
  -- The part of a timer that is linked, and the host after it.
  have hran : ∀ {t : Timer} {result next g}, h.resources.timers.get? id = some t →
      h.call t.callback t.attached.toList [] = (result, next) → R g next →
      Handles R h (h.partOf (.timer id)) g := by
    intro t result next g hget hcall hg
    simp only [partOf, hget, Option.map_some]
    refine .ran rfl (hR.refl h) ?_
    rw [← Part.eq_run (.timer id t.callback t.attached.toList) hcall]
    exact hg
  cases hfires with
  | unlinked hget =>
    simp only [partOf, hget, Option.map_none]
    exact .quiet (hR.refl h)
  | rearmed t v delay next hget hcall _ => exact hran hget hcall (hR.timers next _)
  | finished t v next hget hcall _ => exact hran hget hcall (hR.timers next _)
  | failed t e next hget hcall =>
    exact hran hget hcall (hR.trans (hR.report _ _ e) (hR.timers next _))

theorem childEnded (h : Host) (pid status : Int) :
    Handles R h (h.partOf (.childEnded pid status)) (h.childEnded pid status) := by
  unfold partOf Host.childEnded
  rcases htake : ChildList.take h.resources.children pid with ⟨c, children⟩
  cases c with
  | none =>
    simp only [htake]
    exact .quiet (hR.refl h)
  | some c =>
    simp only [htake]
    refine .ran rfl (hR.children h children) ?_
    rcases hcall : (h.withResources fun r => { r with children }).call c.callback
      (.int (.ofInt status) :: c.attached.toList) c.held with ⟨result, next⟩
    cases result with
    | ok v =>
      have hcalls : Calls _ "process callback" _ _ _ next := .returned v next hcall
      exact hR.calls hcalls rfl
    | error e => exact hR.calls (Calls.failed e next hcall) rfl

theorem connected (h : Host) : Handles R h (h.partOf (.bus .connected)) h.connected := by
  have hhooks := h.hooks
  generalize h.connected = g at hhooks
  unfold partOf
  cases hhooks with
  | none hhook =>
    rw [hhook]
    exact .quiet (hR.refl h)
  | hook f g hhook hcalls =>
    rw [hhook]
    exact .ran rfl (hR.refl h) (hR.calls hcalls rfl)

/-- What is left of a call when its part has run. -/
theorem answered (h : Host) (machine : Machine Resources) (client : Client) (sent : Bool)
    (id : RequestId) (error : Option ScriptError) :
    R (error.elim (Host.noteSent { h with machine, client } sent id)
      ((Host.noteSent { h with machine, client } sent id).report "bus method"))
      { h with machine } := by
  have hsent := hR.noteSent { h with machine, client } sent id
  have hreplied := hR.replied { h with machine } client
  cases error with
  | none => exact hR.trans hsent hreplied
  | some e => exact hR.trans (hR.report _ _ e) (hR.trans hsent hreplied)

theorem answerCall (h : Host) (r : Request) :
    Handles R h (h.partOf (.bus (.call r))) (h.answerCall r) := by
  have hanswers := h.answers r
  generalize h.answerCall r = g at hanswers
  unfold partOf
  cases hanswers with
  | unserved hservice =>
    rw [hservice]
    exact .quiet (hR.refl h)
  | served d dispatch machine sent client hservice hanswer hreply =>
    have hanswered := hR.answered h machine client sent r.id dispatch.error
    rw [hservice]
    by_cases hobject : r.object = d.object
    · cases hmethod : d.callback? r.method with
      | none =>
        simp only [hobject, if_true, hmethod, Option.map_none]
        rcases answer_refused (Or.inr hmethod) hanswer with ⟨rfl, -⟩
        exact .quiet hanswered
      | some f =>
        simp only [hobject, if_true, hmethod, Option.map_some]
        have hran : (Part.run (.method f (r.data.toList.map Value.ofTable)) h).2 =
            { h with machine } := by
          rcases answer_part hobject hmethod hanswer with ⟨v, hrun, -⟩ | ⟨fault, hrun, -⟩
          · rw [hrun]
          · rw [hrun]
        refine .ran rfl (hR.refl h) ?_
        rw [hran]
        exact hanswered
    · simp only [hobject, if_false]
      rcases answer_refused (Or.inl hobject) hanswer with ⟨rfl, -⟩
      exact .quiet hanswered

/-- Every event runs its part, or none. -/
theorem dispatch (h : Host) (e : LoopEvent) : Handles R h (h.partOf e) (h.dispatch e) := by
  cases e with
  | timer id => exact hR.fireTimer h id
  | childEnded pid status => exact hR.childEnded h pid status
  | bus e =>
    cases e with
    | connected => exact hR.connected h
    | disconnected => exact .quiet (hR.diagnosed h _)
    | call r => exact hR.answerCall h r

end Bookkeeping
end ScriptService.Host
