import ScriptService.Proofs.Host.Clients
import ScriptService.Proofs.Host.Stages
import ScriptService.Proofs.Host.Steady
import ScriptService.Proofs.Session.Attempts

/-!
# The session of a run

A run publishes its service when it enters the event loop, and from then on a session keeps the
object on the bus, over any transport. The event loop takes the events of the session one by one:
it calls the connect hook for a connection, answers calls, and stops when it is asked to. Then the
link is closed, and the session may still write what is queued.

Main statement: `HostRun.serves`, which says once what an act makes of the session.
-/

namespace ScriptService

open Session (Deals heardEvents)

/-! ## What is noted -/

/-- The part that an event of the session makes a host run that publishes a service. -/
def ServiceDeclaration.part? (d : ServiceDeclaration) : BusEvent → Option Part
  | .connected => d.connect.map .hook
  | .disconnected => none
  | .call r =>
    if r.object = d.object then
      (d.callback? r.method).map fun f => .method f (r.data.toList.map Value.ofTable)
    else none

/-- What is noted of a session and its owner. -/
inductive Deed where
  | session (f : Session.Fact)
  /-- An event of the session made the host run a part. -/
  | ran (part : Part)
  /-- A call was dispatched. -/
  | dispatched (r : Request) (d : Dispatch)
  deriving Inhabited

namespace Client

/-- What is noted when a session acts. -/
def deeds (client : Client) (acts : List Session.Act) : List Deed :=
  match client.session with
  | none => []
  | some s => (Session.attempted.run s acts).2.map .session

end Client

namespace Host

/-- What is noted when an event of the session is dispatched, latest first. -/
def busDeeds (h : Host) (e : BusEvent) : List Deed :=
  (match e, h.resources.service with
    | .call r, some d => [.dispatched r (Dispatch.answer Resources.natives d r h.machine).1]
    | _, _ => []) ++
    ((h.partOf (.bus e)).map fun p => .ran p.1).toList

/-- What is noted of a turn of the event loop. -/
def turnDeeds (h : Host) : List Deed :=
  match h.nextTurn with
  | (.dispatch (.bus e), next) => next.busDeeds e ++ h.client.deeds [.hear]
  | _ => []

end Host

namespace HostRun

/-- What the next stage of a run is to its session: the link is closed when the loop was left. -/
def closes (r : HostRun) : List Session.Act :=
  match r.stage with
  | .looping => if r.host.phase = .running then [] else [.unlink]
  | _ => []

/-- What is noted of an act. -/
def deeds (r : HostRun) : Act → List Deed
  | .move => r.host.client.deeds (r.host.client.moves r.host.now)
  | .turn => if r.host.phase = .running then r.host.turnDeeds else []
  | .proceed => r.host.client.deeds r.closes
  | _ => []

/-- Runs whose sessions are observed. -/
def attendance : Observed HostRun Act Deed := ⟨act, deeds⟩

end HostRun

/-! ## What a history says -/

def Deed.fact? : Deed → Option Session.Fact
  | .session f => some f
  | _ => none

def Deed.part? : Deed → Option Part
  | .ran part => some part
  | _ => none

def Deed.dispatch? : Deed → Option (Request × Dispatch)
  | .dispatched r d => some (r, d)
  | _ => none

namespace HostRun

/-- The facts of the session. -/
def sessionFacts (h : List Deed) : List Session.Fact := h.filterMap Deed.fact?

/-- The parts that events of the session made the host run, in order. -/
def partsRun (h : List Deed) : List Part := (h.filterMap Deed.part?).reverse

/-- The calls that were dispatched and what came of them, in order. -/
def dispatches (h : List Deed) : List (Request × Dispatch) := (h.filterMap Deed.dispatch?).reverse

theorem sessionFacts_append (ns h : List Deed) :
    sessionFacts (ns ++ h) = sessionFacts ns ++ sessionFacts h :=
  List.filterMap_append

theorem partsRun_append (ns h : List Deed) : partsRun (ns ++ h) = partsRun h ++ partsRun ns := by
  simp [partsRun, List.filterMap_append]

theorem dispatches_append (ns h : List Deed) :
    dispatches (ns ++ h) = dispatches h ++ dispatches ns := by
  simp [dispatches, List.filterMap_append]

/-- Facts of the session are nothing else. -/
theorem views_session (facts : List Session.Fact) :
    sessionFacts (facts.map .session) = facts ∧ partsRun (facts.map .session) = [] ∧
      dispatches (facts.map .session) = [] := by
  simp [sessionFacts, partsRun, dispatches, List.filterMap_map, Function.comp_def, Deed.fact?,
    Deed.part?, Deed.dispatch?]

/-- What is noted of an event that is dispatched. -/
theorem views_heard (part : Option Part) (e : BusEvent) (ds : List Deed)
    (hds : sessionFacts ds = [] ∧ partsRun ds = []) :
    sessionFacts (ds ++ (part.map .ran).toList ++ [.session (.heard e)]) = [.heard e] ∧
      partsRun (ds ++ (part.map .ran).toList ++ [.session (.heard e)]) = part.toList ∧
      dispatches (ds ++ (part.map .ran).toList ++ [.session (.heard e)]) = dispatches ds := by
  have hpart : sessionFacts (part.map Deed.ran).toList = [] ∧
      partsRun (part.map Deed.ran).toList = part.toList ∧
      dispatches (part.map Deed.ran).toList = [] := by
    cases part with
    | none => exact ⟨rfl, rfl, rfl⟩
    | some p => exact ⟨rfl, rfl, rfl⟩
  refine ⟨?_, ?_, ?_⟩
  · rw [sessionFacts_append, sessionFacts_append, hds.1, hpart.1]
    rfl
  · rw [partsRun_append, partsRun_append, hds.2, hpart.2.1, List.append_nil]
    rfl
  · rw [dispatches_append, dispatches_append, hpart.2.2]
    rfl

end HostRun

namespace Host

/-- The part that an event of the session makes a host run is that of its service. -/
theorem partOf_bus {h : Host} {d : ServiceDeclaration} (hservice : h.resources.service = some d)
    (e : BusEvent) : (h.partOf (.bus e)).map (·.1) = d.part? e := by
  cases e with
  | connected => simp [partOf, ServiceDeclaration.part?, hservice, Function.comp_def]
  | disconnected => rfl
  | call r =>
    by_cases hobject : r.object = d.object
    · simp [partOf, ServiceDeclaration.part?, hservice, hobject, Function.comp_def]
    · simp [partOf, ServiceDeclaration.part?, hservice, hobject]

end Host

/-! ## The session of a run -/

namespace HostRun

/-- The session of a run and its owner, at each stage of the run. -/
structure Hosted (r : HostRun) : Prop where
  staged : Staged r
  launching : ∀ file, r.stage = .launching file →
    r.host.client.session = none ∧ r.host.client.closing = none
  looping : r.stage = .looping → r.host.client.closing = none ∧
    ∀ s, r.host.client.session = some s → (∃ d, r.host.resources.service = some d) ∧
      s.linked = true ∧ s.heard = true ∧ s.isOver = false
  closing : ∀ status, r.stage = .closing status → ∀ s, r.host.client.session = some s →
    s.linked = false ∧ s.heard = true
  finished : ∀ status, r.stage = .finished status → ∀ s, r.host.client.session = some s →
    s.isOver = true

/-- What an act makes of the session of a run, and what is noted of it. -/
inductive Serves (r : HostRun) : List Deed → HostRun → Prop where
  | rests (g : Host) (hsession : g.client.session = r.host.client.session)
      (hclosing : g.client.closing = r.host.client.closing)
      (hservice : g.resources.service = r.host.resources.service) : Serves r [] { r with host := g }
  /-- A run without a session goes on to its next stage. -/
  | advanced (next : HostRun) (hnone : r.host.client.session = none)
      (hsession : next.host.client.session = none)
      (hstage : next.stage = .looping ∧ next.host.client.closing = none ∨
        ∃ status, next.stage = .closing status ∨ next.stage = .finished status) : Serves r [] next
  /-- The session begins. -/
  | published (d : ServiceDeclaration) (retry : Nat) (g : Host)
      (hnone : r.host.client.session = none)
      (hsession : g.client.session = some { object := d.exported, retry })
      (hclosing : g.client.closing = none) (hservice : g.resources.service = some d) :
      Serves r [] ⟨g, .looping⟩
  | moved (s : Session) (m : Session.Move) (g : Host) (hs : r.host.client.session = some s)
      (hpermits : s.Permits m) (hsession : g.client.session = some (s.step r.host.now m).2)
      (hclosing : g.client.closing = r.host.client.closing)
      (hservice : g.resources.service = r.host.resources.service) :
      Serves r ((s.facts (.move r.host.now m)).map .session) { r with host := g }
  /-- The session takes too long to end. -/
  | forced (s : Session) (g : Host) (hs : r.host.client.session = some s)
      (hover : s.isOver = false) (hunlinked : r.host.client.closing ≠ none)
      (hsession : g.client.session = some s.abort.2)
      (hservice : g.resources.service = r.host.resources.service) :
      Serves r ((s.facts .abort).map .session) { r with host := g }
  /-- An event that is no call is dispatched. -/
  | heard (s : Session) (e : BusEvent) (rest : List BusEvent) (d : ServiceDeclaration) (g : Host)
      (hlooping : r.stage = .looping) (hs : r.host.client.session = some s)
      (hevents : s.events = e :: rest) (hcall : ∀ q, e ≠ .call q)
      (hd : r.host.resources.service = some d)
      (hsession : g.client.session = some { s with events := rest })
      (hclosing : g.client.closing = r.host.client.closing)
      (hservice : g.resources.service = r.host.resources.service) :
      Serves r (((d.part? e).map .ran).toList ++ [.session (.heard e)]) { r with host := g }
  /-- A call is dispatched and answered. -/
  | answered (s : Session) (q : Request) (rest : List BusEvent) (d : ServiceDeclaration)
      (dispatch : Dispatch) (g : Host) (hlooping : r.stage = .looping)
      (hs : r.host.client.session = some s) (hevents : s.events = .call q :: rest)
      (hd : r.host.resources.service = some d)
      (hsession : g.client.session =
        some (({ s with events := rest } : Session).reply (dispatch.toReply q.id)).2)
      (hclosing : g.client.closing = r.host.client.closing)
      (hservice : g.resources.service = r.host.resources.service) :
      Serves r
        ([.dispatched q dispatch] ++ ((d.part? (.call q)).map .ran).toList ++
          [.session (.heard (.call q))]) { r with host := g }
  /-- The link is closed when the loop was left. -/
  | unlinked (s : Session) (g : Host) (status : Int) (hlooping : r.stage = .looping)
      (hs : r.host.client.session = some s) (hsession : g.client.session = some s.unlink) :
      Serves r [.session .unlinked] ⟨g, .closing status⟩
  | ignored (s : Session) (g : Host) (status : Int) (hs : r.host.client.session = some s)
      (hover : s.isOver = true) (hsession : g.client.session = some s.ignore) :
      Serves r [] ⟨g, .finished status⟩

section

variable {r : HostRun}

theorem serves_move (r : HostRun) : Serves r (r.deeds .move) (r.act .move) := by
  have hworks := r.host.client.works r.host.now
  show Serves r (r.host.client.deeds (r.host.client.moves r.host.now))
    { r with host := { r.host with client := (r.host.client.step r.host.now).getD r.host.client } }
  unfold Client.deeds
  generalize r.host.client.moves r.host.now = acts at hworks
  generalize (r.host.client.step r.host.now).getD r.host.client = next at hworks
  cases hworks with
  | rests =>
    have hnone : (match r.host.client.session with
        | none => []
        | some s => (Session.attempted.run s []).2.map Deed.session) = [] := by
      cases r.host.client.session with
      | none => rfl
      | some s => rfl
    rw [hnone]
    exact .rests _ rfl rfl rfl
  | moved s m _ hs hpermits hnext hclosing =>
    simp only [hs, Observed.run_singleton]
    exact .moved s m _ hs hpermits hnext hclosing rfl
  | forced s _ hs hover hclosing hnext =>
    simp only [hs, Observed.run_singleton]
    exact .forced s _ hs hover hclosing hnext rfl

theorem serves_turn (hr : Hosted r) (hphase : r.host.phase = .running) :
    Serves r r.host.turnDeeds { r with host := r.host.turn.2 } := by
  have hlooping := hr.staged.running hphase
  have hclient := r.host.nextTurn_client
  have hkeeps := r.host.steady_nextTurn.service
  have hkept := r.host.steady_turn.service
  rw [Host.turn_eq] at hkept ⊢
  unfold Host.turnDeeds
  rcases hturn : r.host.nextTurn with ⟨turn, next⟩
  rw [hturn] at hclient hkeeps hkept
  rcases hclient with ⟨e, he, hnext⟩ | ⟨hother, hsame⟩
  · cases he
    obtain ⟨s, rest, hs, hevents, hclient⟩ := Client.nextEvent_eq_some hnext
    change next.client = _ at hclient
    obtain ⟨⟨d, hd⟩, -⟩ := (hr.looping hlooping).2 s hs
    have hservice : next.resources.service = some d := hkeeps.trans hd
    have hfacts : r.host.client.deeds [.hear] = [.session (.heard e)] := by
      unfold Client.deeds
      simp only [hs, Observed.run_singleton]
      show (s.facts .hear).map Deed.session = _
      rw [Session.facts_hear hevents]
      rfl
    have hran : (next.partOf (.bus e)).map (fun p => Deed.ran p.1) = (d.part? e).map .ran := by
      rw [← Host.partOf_bus hservice e, Option.map_map]
      rfl
    have hsession : next.client.session = some { s with events := rest } := by rw [hclient]
    have hclosing : next.client.closing = r.host.client.closing := by rw [hclient]
    simp only [hfacts]
    show Serves r (next.busDeeds e ++ _) { r with host := next.dispatch (.bus e) }
    unfold Host.busDeeds
    rw [hran]
    cases e with
    | connected =>
      have hsame := next.dispatch_client (e := .bus .connected) (by simp)
      exact .heard s .connected rest d _ hlooping hs hevents (by simp) hd
        (by rw [hsame]; exact hsession) (by rw [hsame]; exact hclosing) hkept
    | disconnected =>
      exact .heard s .disconnected rest d _ hlooping hs hevents (by simp) hd hsession hclosing hkept
    | call q =>
      have hanswered := Host.answerCall_client hservice q
      simp only [hservice]
      refine .answered s q rest d _ _ hlooping hs hevents hd ?_ ?_ hkept
      · show (next.answerCall q).client.session = _
        rw [hanswered]
        exact Client.reply_session hsession _
      · show (next.answerCall q).client.closing = _
        rw [hanswered]
        exact (Client.reply_closing _ _).trans hclosing
  · -- What is not an event of the session leaves the client alone.
    change next.client = r.host.client at hsame
    have hrests : ∀ {g : Host}, g.client = next.client →
        g.resources.service = r.host.resources.service → Serves r [] { r with host := g } := by
      intro g hg hservice
      have hclient := hg.trans hsame
      exact .rests g (by rw [hclient]) (by rw [hclient]) hservice
    cases turn with
    | leave => exact hrests rfl hkept
    | lookAgain => exact hrests rfl hkept
    | wait => exact hrests rfl hkept
    | dispatch e =>
      cases e with
      | bus e => exact absurd rfl (hother e)
      | timer id => exact hrests (Host.dispatch_client next (by simp)) hkept
      | childEnded pid status => exact hrests (Host.dispatch_client next (by simp)) hkept

/-- A run that begins to release everything closes the link of its session. -/
theorem serves_conclude (hr : Hosted r) {g : Host}
    (hopen : (∃ file, r.stage = .launching file) ∨ r.stage = .looping ∧ r.host.phase ≠ .running)
    (hclient : g.client = r.host.client) (status : Int) :
    Serves r (r.host.client.deeds r.closes) (conclude g status) := by
  have hconcluded : (conclude g status).host.client =
      r.host.client.close g.releaseLocal.now Host.closeGrace := by
    rw [← hclient]
    rfl
  unfold Client.close at hconcluded
  unfold Client.deeds
  cases hs : r.host.client.session with
  | none =>
    simp only [hs] at hconcluded
    refine .advanced _ hs ?_ (Or.inr ⟨status, Or.inl rfl⟩)
    rw [hconcluded]
    exact hs
  | some s =>
    rcases hopen with ⟨file, hstage⟩ | ⟨hstage, hphase⟩
    · exact absurd (hs.symm.trans (hr.launching file hstage).1) (by simp)
    · have hover := ((hr.looping hstage).2 s hs).2.2.2
      have hcloses : r.closes = [.unlink] := by simp [closes, hstage, hphase]
      simp only [hs, hover, Host.closeGrace] at hconcluded
      simp only [hcloses, Observed.run_singleton]
      show Serves r ((s.facts .unlink).map .session) _
      rw [Session.facts_unlink]
      refine .unlinked s _ status hstage hs ?_
      show (conclude g status).host.client.session = some s.unlink
      rw [hconcluded]
      rfl

theorem serves_enter (hr : Hosted r) {file : ScriptFile} (hstage : r.stage = .launching file)
    {g : Host} (hclient : g.client = r.host.client) :
    Serves r [] ⟨{ g.activateService with phase := .running }, .looping⟩ := by
  obtain ⟨hnone, hclosing⟩ := hr.launching file hstage
  rw [← hclient] at hnone hclosing
  have hadvanced : ∀ {active : Host}, active.client = g.client →
      Serves r [] ⟨{ active with phase := .running }, .looping⟩ := by
    intro active hactive
    have hsame : active.client = r.host.client := hactive.trans hclient
    refine .advanced _ (by rw [← hclient]; exact hnone) ?_ (Or.inl ⟨rfl, ?_⟩)
    · show active.client.session = none
      rw [hactive]
      exact hnone
    · show active.client.closing = none
      rw [hactive]
      exact hclosing
  have hpublishes := g.publishes
  generalize g.activateService = active at hpublishes
  cases hpublishes with
  | none => exact hadvanced rfl
  | ignored e => exact hadvanced rfl
  | published d w _ =>
    exact .published d g.config.retry _ (by rw [← hclient]; exact hnone) rfl hclosing rfl

theorem serves_proceed (hr : Hosted r) : Serves r (r.deeds .proceed) (r.act .proceed) := by
  show Serves r (r.host.client.deeds r.closes) (r.step.getD r)
  -- Nothing is noted unless the link is closed.
  have hnothing : r.closes = [] → r.host.client.deeds r.closes = [] := by
    intro hcloses
    rw [hcloses]
    unfold Client.deeds
    split
    · rfl
    · rfl
  cases hstep : r.step with
  | none =>
    have hcloses : r.closes = [] := by
      unfold closes
      unfold step at hstep
      cases hstage : r.stage with
      | looping =>
        simp only [hstage] at hstep ⊢
        by_cases hphase : r.host.phase = .running
        · rw [if_pos hphase]
        · rw [if_neg hphase] at hstep
          split at hstep
          · cases hstep
          · cases hstep
      | _ => rfl
    rw [hnothing hcloses]
    exact .rests r.host rfl rfl rfl
  | some next =>
    have hproceeds := proceeds hstep
    rw [Option.getD_some]
    cases hproceeds with
    | concludes g status hopen hclient => exact serves_conclude hr hopen hclient status
    | enters file g hstage hclient =>
      rw [hnothing (by simp [closes, hstage])]
      exact serves_enter hr hstage hclient
    | finishes status hstage hcan =>
      rw [hnothing (by simp [closes, hstage])]
      have hignored : r.host.finishRelease.client = r.host.client.ignore := rfl
      unfold Client.ignore at hignored
      cases hs : r.host.client.session with
      | none =>
        refine .advanced _ hs ?_ (Or.inr ⟨status, Or.inr rfl⟩)
        rw [hignored, hs]
        rfl
      | some s =>
        have hover : s.isOver = true := by
          simpa [Host.canFinish, Client.isActive, hs] using hcan
        refine .ignored s _ status hs hover ?_
        rw [hignored, hs]
        rfl

/-- What an act makes of the session of a run, case by case. -/
theorem serves (hr : Hosted r) (a : Act) : Serves r (r.deeds a) (r.act a) := by
  cases a with
  | move => exact serves_move r
  | turn =>
    unfold deeds act turnLoop
    by_cases hphase : r.host.phase = .running
    · simp only [hphase, if_true]
      exact serves_turn hr hphase
    · simp only [hphase, if_false]
      exact .rests r.host rfl rfl rfl
  | proceed => exact serves_proceed hr
  | beside m => exact .rests _ (Client.beside_session _ m) (Client.beside_closing _ m) rfl
  | _ => exact .rests _ rfl rfl rfl

/-! ## The stages of a run -/

theorem hosted_fresh (config : HostConfig) (transport : Transport) (world : World)
    (file : ScriptFile) : Hosted (fresh config transport world file) where
  staged := staged_fresh config transport world file
  launching := fun _ _ => ⟨rfl, rfl⟩
  looping := fun hstage => by cases hstage
  closing := fun _ hstage => by cases hstage
  finished := fun _ hstage => by cases hstage

/-- An act within a stage changes the session as the stage allows. -/
theorem Hosted.within (hr : Hosted r) {g : Host} (hstaged : Staged { r with host := g })
    (hlaunching : r.host.client.session = none → g.client.session = none)
    (hclosing : r.host.client.closing = none → g.client.closing = none)
    (hservice : g.resources.service = r.host.resources.service)
    (hsession : ∀ t, g.client.session = some t → ∃ s, r.host.client.session = some s ∧
      (s.linked = false → t.linked = false) ∧ (s.heard = true → t.heard = true) ∧
      (s.isOver = true → t.isOver = true) ∧
      (r.stage = .looping → s.linked = true → s.heard = true → s.isOver = false →
        t.linked = true ∧ t.isOver = false)) :
    Hosted { r with host := g } where
  staged := hstaged
  launching := fun file hstage =>
    ⟨hlaunching (hr.launching file hstage).1, hclosing (hr.launching file hstage).2⟩
  looping := by
    intro hstage
    obtain ⟨hnone, hlooping⟩ := hr.looping hstage
    refine ⟨hclosing hnone, ?_⟩
    intro t ht
    obtain ⟨s, hs, -, hheard, -, hgoes⟩ := hsession t ht
    obtain ⟨⟨d, hd⟩, hl, hh, hover⟩ := hlooping s hs
    obtain ⟨hlinked, hgoing⟩ := hgoes hstage hl hh hover
    exact ⟨⟨d, hservice.trans hd⟩, hlinked, hheard hh, hgoing⟩
  closing := by
    intro status hstage t ht
    obtain ⟨s, hs, hlinked, hheard, -, -⟩ := hsession t ht
    obtain ⟨hl, hh⟩ := hr.closing status hstage s hs
    exact ⟨hlinked hl, hheard hh⟩
  finished := by
    intro status hstage t ht
    obtain ⟨s, hs, -, -, hover, -⟩ := hsession t ht
    exact hover (hr.finished status hstage s hs)

theorem Hosted.next {next : HostRun} {ns : List Deed} (hr : Hosted r) (hserves : Serves r ns next)
    (hstaged : Staged next) : Hosted next := by
  cases hserves with
  | rests g hsession hclosing hservice =>
    refine hr.within hstaged (hsession.trans ·) (hclosing.trans ·) hservice ?_
    intro t ht
    exact ⟨t, hsession.symm.trans ht, id, id, id, fun _ hl _ hover => ⟨hl, hover⟩⟩
  | advanced _ hnone hsession hstage =>
    have habsent : ∀ {p : Session → Prop}, ∀ s, next.host.client.session = some s → p s := by
      intro p s hs
      exact absurd (hsession.symm.trans hs) (by simp)
    refine ⟨hstaged, ?_, ?_, fun _ _ => habsent, fun _ _ => habsent⟩
    · intro file hlaunching
      rcases hstage with ⟨hlooping, -⟩ | ⟨status, hstage | hstage⟩
      · exact absurd (hlooping.symm.trans hlaunching) (by simp)
      · exact absurd (hstage.symm.trans hlaunching) (by simp)
      · exact absurd (hstage.symm.trans hlaunching) (by simp)
    · intro hlooping
      rcases hstage with ⟨-, hclosing⟩ | ⟨status, hstage | hstage⟩
      · exact ⟨hclosing, habsent⟩
      · exact absurd (hstage.symm.trans hlooping) (by simp)
      · exact absurd (hstage.symm.trans hlooping) (by simp)
  | published d retry g hnone hsession hclosing hservice =>
    refine ⟨hstaged, ?_, ?_, ?_, ?_⟩
    · intro file hstage
      cases hstage
    · intro _
      refine ⟨hclosing, ?_⟩
      intro s hs
      obtain rfl := Option.some.inj (hsession.symm.trans hs)
      exact ⟨⟨d, hservice⟩, rfl, rfl, rfl⟩
    · intro status hstage
      cases hstage
    · intro status hstage
      cases hstage
  | moved s m g hs hpermits hsession hclosing hservice =>
    obtain ⟨hlinked, hheard⟩ := s.step_frame r.host.now m
    refine hr.within hstaged (fun hnone => absurd (hs.symm.trans hnone) (by simp))
      (hclosing.trans ·) hservice ?_
    intro t ht
    obtain rfl := Option.some.inj (hsession.symm.trans ht)
    refine ⟨s, hs, hlinked.trans, hheard.trans, ?_, ?_⟩
    · intro hover
      rw [(Session.step_of_isOver hover _ m).1]
      exact hover
    · intro _ hl hh hover
      exact ⟨hlinked.trans hl, Session.isOver_step hover hh hl hpermits _⟩
  | forced s g hs hover hunlinked hsession hservice =>
    refine hr.within hstaged (fun hnone => absurd (hs.symm.trans hnone) (by simp))
      (fun hnone => absurd hnone hunlinked) hservice ?_
    intro t ht
    obtain rfl := Option.some.inj (hsession.symm.trans ht)
    refine ⟨s, hs, fun _ => ?_, fun hheard => ?_, fun _ => s.abort_isOver, ?_⟩
    · unfold Session.abort
      split <;> rfl
    · unfold Session.abort
      split <;> exact hheard
    · intro hlooping
      exact absurd (hr.looping hlooping).1 hunlinked
  | heard s e rest d g _ hs _ _ _ hsession hclosing hservice =>
    refine hr.within hstaged (fun hnone => absurd (hs.symm.trans hnone) (by simp))
      (hclosing.trans ·) hservice ?_
    intro t ht
    obtain rfl := Option.some.inj (hsession.symm.trans ht)
    exact ⟨s, hs, id, id, id, fun _ hl _ hover => ⟨hl, hover⟩⟩
  | answered s q rest d dispatch g _ hs _ _ hsession hclosing hservice =>
    obtain ⟨hstage, hlinked, hheard⟩ := s.reply_left rest (dispatch.toReply q.id)
    have hsame := Session.isOver_of_stage hstage
    refine hr.within hstaged (fun hnone => absurd (hs.symm.trans hnone) (by simp))
      (hclosing.trans ·) hservice ?_
    intro t ht
    obtain rfl := Option.some.inj (hsession.symm.trans ht)
    exact ⟨s, hs, hlinked.trans, hheard.trans, hsame.trans,
      fun _ hl _ hover => ⟨hlinked.trans hl, hsame.trans hover⟩⟩
  | unlinked s g status hlooping hs hsession =>
    refine ⟨hstaged, ?_, ?_, ?_, ?_⟩
    · intro file hstage
      cases hstage
    · intro hstage
      cases hstage
    · intro _ _ t ht
      obtain rfl := Option.some.inj (hsession.symm.trans ht)
      exact ⟨rfl, ((hr.looping hlooping).2 s hs).2.2.1⟩
    · intro _ hstage
      cases hstage
  | ignored s g status hs hover hsession =>
    refine ⟨hstaged, ?_, ?_, ?_, ?_⟩
    · intro file hstage
      cases hstage
    · intro hstage
      cases hstage
    · intro _ hstage
      cases hstage
    · intro _ _ t ht
      obtain rfl := Option.some.inj (hsession.symm.trans ht)
      exact hover

theorem Hosted.act (hr : Hosted r) (a : Act) : Hosted (r.act a) :=
  hr.next (serves hr a) (hr.staged.does (does hr.staged a))

end

/-! ## The owner of a session -/

section

variable {r next : HostRun} {ns : List Deed} {s : Session}

/-- A session that goes on is listened to. -/
theorem Hosted.listens (hr : Hosted r) (hs : r.host.client.session = some s)
    (hover : s.isOver = false) : s.heard = true := by
  cases hstage : r.stage with
  | launching file => exact absurd (hs.symm.trans (hr.launching file hstage).1) (by simp)
  | looping => exact ((hr.looping hstage).2 s hs).2.2.1
  | closing status => exact (hr.closing status hstage s hs).2
  | finished status => exact absurd (hover.symm.trans (hr.finished status hstage s hs)) (by simp)

/-- A run deals with its session as an owner that dispatches every call that it takes. -/
theorem Serves.deals (hserves : Serves r ns next) (hr : Hosted r)
    (hs : r.host.client.session = some s) :
    ∃ t, next.host.client.session = some t ∧ Deals s (sessionFacts ns) (dispatches ns) t := by
  -- The session that acts is the one that the run has.
  have hsame : ∀ {t : Session}, r.host.client.session = some t → t = s :=
    fun ht => Option.some.inj (ht.symm.trans hs)
  have hnone : ∀ {p : Prop}, r.host.client.session = none → p :=
    fun hno => absurd (hs.symm.trans hno) (by simp)
  cases hserves with
  | rests g hsession _ _ => exact ⟨s, hsession.trans hs, .rests⟩
  | advanced _ hno _ _ => exact hnone hno
  | published d retry g hno _ _ _ => exact hnone hno
  | moved t m g ht hpermits hsession _ _ =>
    obtain rfl := hsame ht
    refine ⟨_, hsession, ?_⟩
    rw [(views_session _).1, (views_session _).2.2]
    exact .moved _ m (hr.listens hs) hpermits
  | forced t g ht hover _ hsession _ =>
    obtain rfl := hsame ht
    refine ⟨_, hsession, ?_⟩
    rw [(views_session _).1, (views_session _).2.2]
    exact .forced hover
  | heard t e rest d g hlooping ht hevents hcall _ hsession _ _ =>
    obtain rfl := hsame ht
    have hover := ((hr.looping hlooping).2 _ hs).2.2.2
    have hviews := views_heard (d.part? e) e [] ⟨rfl, rfl⟩
    rw [List.nil_append] at hviews
    refine ⟨_, hsession, ?_⟩
    rw [hviews.1, hviews.2.2]
    exact .heard e rest hover hevents hcall
  | answered t q rest d dispatch g hlooping ht hevents _ hsession _ _ =>
    obtain rfl := hsame ht
    have hover := ((hr.looping hlooping).2 _ hs).2.2.2
    have hviews := views_heard (d.part? (.call q)) (.call q) [.dispatched q dispatch] ⟨rfl, rfl⟩
    refine ⟨_, hsession, ?_⟩
    rw [hviews.1, hviews.2.2]
    exact .answered q rest dispatch hover hevents
  | unlinked t g status _ ht hsession =>
    obtain rfl := hsame ht
    exact ⟨_, hsession, .unlinked⟩
  | ignored t g status ht hover hsession =>
    obtain rfl := hsame ht
    exact ⟨_, hsession, .ignored hover⟩

/-- What holds when the session begins. -/
theorem Serves.begins (hserves : Serves r ns next) (hnone : r.host.client.session = none) :
    ns = [] ∧ ∀ s, next.host.client.session = some s →
      ∃ d retry, s = { object := d.exported, retry := retry } ∧
        next.host.resources.service = some d := by
  have habsent : ∀ {s : Session} {p : Prop}, r.host.client.session = some s → p :=
    fun hs => absurd (hs.symm.trans hnone) (by simp)
  cases hserves with
  | rests g hsession _ _ => exact ⟨rfl, fun s hs => habsent (hsession.symm.trans hs)⟩
  | advanced _ _ hsession _ =>
    exact ⟨rfl, fun s hs => absurd (hsession.symm.trans hs) (by simp)⟩
  | published d retry g _ hsession _ hservice =>
    exact ⟨rfl, fun s hs => ⟨d, retry, (Option.some.inj (hsession.symm.trans hs)).symm, hservice⟩⟩
  | moved s m g hs _ _ _ _ => exact habsent hs
  | forced s g hs _ _ _ _ => exact habsent hs
  | heard s e rest d g _ hs _ _ _ _ _ _ => exact habsent hs
  | answered s q rest d dispatch g _ hs _ _ _ _ _ => exact habsent hs
  | unlinked s g status _ hs _ => exact habsent hs
  | ignored s g status hs _ _ => exact habsent hs

/-- The loop is entered before the session begins, and keeps the service. -/
theorem Serves.keeps (hserves : Serves r ns next) (hs : r.host.client.session = some s)
    (hlooping : next.stage = .looping) :
    r.stage = .looping ∧ next.host.resources.service = r.host.resources.service := by
  have hsome : ∀ {p : Prop}, r.host.client.session = none → p :=
    fun hnone => absurd (hs.symm.trans hnone) (by simp)
  cases hserves with
  | rests g _ _ hservice => exact ⟨hlooping, hservice⟩
  | advanced _ hnone _ _ => exact hsome hnone
  | published d retry g hnone _ _ _ => exact hsome hnone
  | moved s m g _ _ _ _ hservice => exact ⟨hlooping, hservice⟩
  | forced s g _ _ _ _ hservice => exact ⟨hlooping, hservice⟩
  | heard s e rest d g _ _ _ _ _ _ _ hservice => exact ⟨hlooping, hservice⟩
  | answered s q rest d dispatch g _ _ _ _ _ _ hservice => exact ⟨hlooping, hservice⟩
  | unlinked s g status _ _ _ => cases hlooping
  | ignored s g status _ _ _ => cases hlooping

/-- The parts that run are those that the service has for the events that the loop takes. -/
theorem Serves.parts {d : ServiceDeclaration} (hserves : Serves r ns next)
    (hd : r.stage = .looping → r.host.resources.service = some d) :
    partsRun ns = (heardEvents (sessionFacts ns)).filterMap d.part? := by
  -- What the session does by itself makes no part run.
  have hquiet : ∀ {facts : List Session.Fact}, heardEvents facts = [] →
      partsRun (facts.map .session) =
        (heardEvents (sessionFacts (facts.map .session))).filterMap d.part? := by
    intro facts hnone
    obtain ⟨hfacts, hparts, -⟩ := views_session facts
    rw [hparts, hfacts, hnone]
    rfl
  have hone : ∀ e : BusEvent, (d.part? e).toList = [e].filterMap d.part? := by
    intro e
    cases hpart : d.part? e with
    | none => simp [hpart]
    | some p => simp [hpart]
  cases hserves with
  | rests g _ _ _ => rfl
  | advanced _ _ _ _ => rfl
  | published d retry g _ _ _ _ => rfl
  | moved s m g _ _ _ _ _ => exact hquiet (Session.heardEvents_facts (by simp))
  | forced s g _ _ _ _ _ => exact hquiet (Session.heardEvents_facts (by simp))
  | heard s e rest d' g hlooping _ _ _ hd' _ _ _ =>
    obtain rfl := Option.some.inj (hd'.symm.trans (hd hlooping))
    obtain ⟨hfacts, hparts, -⟩ := views_heard (d'.part? e) e [] ⟨rfl, rfl⟩
    rw [List.nil_append] at hfacts hparts
    rw [hparts, hfacts]
    exact hone e
  | answered s q rest d' dispatch g hlooping _ _ hd' _ _ _ =>
    obtain rfl := Option.some.inj (hd'.symm.trans (hd hlooping))
    obtain ⟨hfacts, hparts, -⟩ :=
      views_heard (d'.part? (.call q)) (.call q) [.dispatched q dispatch] ⟨rfl, rfl⟩
    rw [hparts, hfacts]
    exact hone (.call q)
  | unlinked s g status _ _ _ => rfl
  | ignored s g status _ _ _ => rfl

end

end HostRun
end ScriptService
