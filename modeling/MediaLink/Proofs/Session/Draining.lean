import MediaLink.Proofs.Session.Accessors
import Mathlib.Data.Prod.Lex
import Mathlib.Order.WellFounded

/-! A loop that is left to itself empties its queue, whatever the providers answer and post. -/
namespace MediaLink

/-- Only a binder reports channels. -/
def Event.reportsChannel {κ : Type} : Event κ → Bool
  | .binder _ (.bound _) => true
  | _ => false

/-- While a call runs only providers post, through sinks that they were given. -/
def Transport.Reserved (t : Transport) : Prop :=
  ∀ p call, ∀ posting ∈ (t.call p call).posts, ∃ sink note, posting = .provider sink note

namespace World

variable {κ : Type} {u v w : World κ} {t : Transport} {e : Event κ} {rest : List (Event κ)}

/-! What a call leaves in the queue. -/

/-- The queue has grown, but no channel has been reported. -/
def Fed (u v : World κ) : Prop :=
  ∃ news, v.queue = u.queue ++ news ∧ ∀ e ∈ news, e.reportsChannel = false

theorem Fed.same (h : v.queue = u.queue) : Fed u v := ⟨[], by simp [h], by simp⟩

theorem Fed.trans (h : Fed u v) (hs : Fed v w) : Fed u w := by
  obtain ⟨first, hv, hf⟩ := h
  obtain ⟨later, hw, hl⟩ := hs
  refine ⟨first ++ later, by rw [hw, hv, List.append_assoc], fun e he => ?_⟩
  exact (List.mem_append.mp he).elim (hf e) (hl e)

theorem fed_offer (he : e.reportsChannel = false) (unheard : Remark κ) (w : World κ) :
    Fed w (w.offer e unheard) := by
  by_cases hl : w.loop = .closed
  · exact .same (by simp [offer, hl, remark])
  · exact ⟨[e], by simp [offer, hl], by simpa using he⟩

theorem fed_post (sink : ProviderSink) (note : ProviderNote) (w : World κ) :
    Fed w (w.post (.provider sink note)) := by
  simp only [post]
  split
  · exact fed_offer rfl ..
  · exact .same rfl

theorem fed_postAll {posts : List Posting}
    (hp : ∀ posting ∈ posts, ∃ sink note, posting = .provider sink note) (w : World κ) :
    Fed w (w.postAll posts) := by
  induction posts generalizing w with
  | nil => exact .same rfl
  | cons posting posts ih =>
    obtain ⟨sink, note, rfl⟩ := hp posting List.mem_cons_self
    exact (fed_post sink note w).trans (ih (fun q hq => hp q (List.mem_cons_of_mem _ hq)) _)

theorem fed_invoke (ht : t.Reserved) (p : Provider) (call : Call) (w : World κ) :
    Fed w (w.invoke (t.call p call) p call) :=
  fed_postAll (ht p call) (w.act (.call p call (t.call p call).failure))

theorem fed_send (ht : t.Reserved) (p : Provider) (call : Call) (w : World κ) :
    Fed w (w.send t p call) := by
  have hi := fed_invoke ht p call w
  simp only [send]
  split
  · simp only [callFailed]
    split
    · exact hi.trans (fed_offer (w := remark _ _) rfl _)
    · exact hi
  · exact hi

theorem fed_resends (ht : t.Reserved) (p : Provider) (token : Token)
    (entries : List (String × Option Payload)) (w : World κ) :
    Fed w (entries.foldl (resend t p token) w) := by
  induction entries generalizing w with
  | nil => exact .same rfl
  | cons entry entries ih =>
    have hs : Fed w (w.resend t p token entry) := fed_send ht p _ (w.remark _)
    exact hs.trans (ih _)

theorem fed_replay (ht : t.Reserved) (w : World κ) : Fed w (w.replay t) := by
  simp only [replay]
  split
  · exact fed_resends ht ..
  · exact .same rfl

theorem queue_failAttempt (w : World κ) : w.failAttempt.queue = w.queue := by
  rw [failAttempt_eq]

theorem fed_requestConnect (ht : t.Reserved) (p : Provider) (token : Token) (w : World κ) :
    Fed w (w.requestConnect t p token) := by
  have hi := fed_invoke ht p (.connect token)
    { w.remark (.bound token) with
      session := { w.session with provider := some p }
      providerSinks := w.providerSinks ++ [⟨p, token⟩] }
  simp only [requestConnect]
  split
  · exact hi.trans (.same (queue_failAttempt _))
  · exact hi

theorem fed_onBound (ht : t.Reserved) (p : Provider) (w : World κ) : Fed w (w.onBound t p) := by
  simp only [onBound]
  split
  · split
    · exact fed_requestConnect ht ..
    · exact .same rfl
  · exact fed_requestConnect ht p w.nextToken
      (remark (.restored w.nextToken) (w.startAttempt Session.resume).1)
  · exact .same rfl

/-! What the loop still has to do. -/

/-- How handling an event brings the end of the queue nearer: nothing is added to it, a reported
channel has been dealt with, or no attempt waits for its answer any more. -/
inductive Relieved (e : Event κ) (u v : World κ) : Prop where
  | spent (hq : v.queue = u.queue) (hl : v.lookups = u.lookups)
      (hp : v.session.phase = .connecting → u.session.phase = .connecting)
  | reached (h : Fed u v) (he : e.reportsChannel)
  | decided (h : Fed u v) (hu : u.session.phase = .connecting)
      (hv : v.session.phase ≠ .connecting)

theorem Relieved.idle (e : Event κ) (w : World κ) : Relieved e w w := .spent rfl rfl id

theorem Relieved.remarked {r : Remark κ} (h : Relieved e (u.remark r) v) : Relieved e u v := by
  cases h with
  | spent hq hl hp => exact .spent hq hl hp
  | reached hf he => exact .reached hf he
  | decided hf hu hv => exact .decided hf hu hv

theorem relieved_failAttempt (e : Event κ) (w : World κ) : Relieved e w w.failAttempt :=
  .spent (queue_failAttempt w) (by rw [failAttempt_eq]) (by simp [failAttempt_eq, Session.reset])

theorem relieved_ifCurrent {token what} (go : World κ → World κ) (h : Relieved e w (go w)) :
    Relieved e w (w.ifCurrent token what go) := by
  simp only [ifCurrent]
  split
  · exact h
  · split
    · exact .idle e w
    · exact .spent rfl rfl id

theorem relieved_ifHeld {token what} {go : World κ → World κ} (h : Relieved e w (go w)) :
    Relieved e w (w.ifHeld token what go) := by
  simp only [ifHeld]
  split
  · exact h
  · exact .spent rfl rfl id

theorem relieved_onRefused (e : Event κ) (hurdle : Hurdle) (w : World κ) :
    Relieved e w (w.onRefused hurdle) := by
  simp only [onRefused]
  split
  · exact .spent rfl rfl id
  · exact .remarked (relieved_failAttempt e _)

theorem relieved_onLost (e : Event κ) (w : World κ) : Relieved e w w.onLost := by
  simp only [onLost]
  split
  · exact .remarked (relieved_failAttempt e _)
  · exact .spent rfl rfl (by simp [notify, act, Session.suspend])
  · exact .spent rfl rfl id

theorem relieved_onAccepted (ht : t.Reserved) (hl : w.loop ≠ .closed) (e : Event κ)
    (sink : ProviderSink) (reply : Reply) : Relieved e w (w.onAccepted t sink reply) := by
  simp only [onAccepted]
  split
  · exact .spent rfl rfl id
  · rename_i hp
    split
    · split
      · exact .remarked (relieved_failAttempt e _)
      · rename_i token _ _
        -- The replay may post anything, but the session stays connected.
        have hs := replay_session (t := t)
          (w := remark (.connected (w.session.complete reply.root token reply.extras).root)
            (act (.accepted sink reply)
              { w with session := w.session.complete reply.root token reply.extras })) hl
        refine .decided (fed_replay (w := remark _ _) ht) (not_not.mp hp) ?_
        rw [notify, act, hs]
        simp [remark, act, Session.complete]
    · exact .remarked (relieved_failAttempt e _)

theorem relieved_onChildren (e : Event κ) (batch : Batch) (w : World κ) :
    Relieved e w (w.onChildren batch) := by
  simp only [onChildren]
  split
  · exact .spent rfl rfl id
  · exact .spent rfl rfl id

theorem relieved_handle (ht : t.Reserved) (hl : w.loop ≠ .closed) (e : Event κ) :
    Relieved e w (w.handle t e) := by
  cases e with
  | bindRefused token => exact relieved_ifCurrent _ (relieved_onRefused ..)
  | binder sink note =>
    cases note with
    | bound p => exact relieved_ifHeld (.reached (fed_onBound ht p w) rfl)
    | unbound => exact relieved_ifHeld (relieved_onLost ..)
  | provider sink note =>
    cases note with
    | accepted reply => exact relieved_ifCurrent _ (relieved_onAccepted ht hl ..)
    | refused => exact relieved_ifCurrent _ (relieved_onRefused ..)
    | children batch => exact relieved_ifCurrent _ (relieved_onChildren ..)
  | lost token fault =>
    refine relieved_ifCurrent (fun w => (w.remark (.channelLost token fault)).onLost) ?_
    exact .remarked (relieved_onLost _ (w.remark _))
  | item request mediaId item callback => exact .spent rfl rfl id
  | barrier => exact .idle _ w

/-- The channels that wait to be handled, then whether an attempt waits for its answer, then the
events that wait and the lookups that can still lead to one. -/
def load (w : World κ) : ℕ ×ₗ ℕ ×ₗ ℕ :=
  toLex (w.queue.countP Event.reportsChannel,
    toLex (if w.session.phase = .connecting then 1 else 0, w.lookups.length + w.queue.length))

theorem Fed.countP (h : Fed u v) :
    v.queue.countP Event.reportsChannel = u.queue.countP Event.reportsChannel := by
  obtain ⟨news, hq, hn⟩ := h
  have hz : news.countP Event.reportsChannel = 0 := List.countP_eq_zero.mpr (by simpa using hn)
  rw [hq, List.countP_append, hz, Nat.add_zero]

theorem Relieved.load (h : Relieved e u v) :
    v.load < World.load { u with queue := e :: u.queue } := by
  rw [World.load, World.load, Prod.Lex.toLex_lt_toLex, Prod.Lex.toLex_lt_toLex]
  simp only [List.countP_cons, List.length_cons]
  cases h with
  | spent hq hl hp =>
    have hc : (if v.session.phase = .connecting then 1 else 0) ≤
        if u.session.phase = .connecting then 1 else 0 := by
      split
      · rename_i hv
        simp [hp hv]
      · exact Nat.zero_le _
    rw [hq, hl]
    cases e.reportsChannel with
    | true => exact .inl (by simp)
    | false => exact .inr ⟨by simp, by omega⟩
  | reached hf he => exact .inl (by simp [hf.countP, he])
  | decided hf hu hv =>
    rw [hf.countP]
    cases e.reportsChannel with
    | true => exact .inl (by simp)
    | false => exact .inr ⟨by simp, .inl (by simp [hu, hv])⟩

/-! Answers to lookups that are under way. -/

/-- What answers to lookups leave as it was, and what they leave in the queue. -/
structure Informed (u v : World κ) : Prop where
  session : v.session = u.session
  loop : v.loop = u.loop
  handles : v.handles = u.handles
  fed : Fed u v
  shut : u.loop = .closed → v.queue = u.queue
  fewer : v.lookups.length + v.queue.length ≤ u.lookups.length + u.queue.length

theorem Informed.refl (w : World κ) : Informed w w :=
  ⟨rfl, rfl, rfl, .same rfl, fun _ => rfl, Nat.le_refl _⟩

theorem Informed.trans (h : Informed u v) (hs : Informed v w) : Informed u w :=
  ⟨hs.session.trans h.session, hs.loop.trans h.loop, hs.handles.trans h.handles,
    h.fed.trans hs.fed, fun hl => (hs.shut (h.loop.trans hl)).trans (h.shut hl),
    hs.fewer.trans h.fewer⟩

theorem informed_answer (result : Except RemoteFault (Option Item)) (index : Nat) (w : World κ) :
    Informed w (w.answer result index) := by
  simp only [answer]
  cases hl : w.lookups[index]? with
  | none => exact .refl w
  | some l =>
    have hi : index < w.lookups.length := (List.getElem?_eq_some_iff.mp hl).1
    have he : (w.lookups.eraseIdx index).length + 1 = w.lookups.length := by
      rw [List.length_eraseIdx_of_lt hi]
      omega
    have hm : ∀ remarks found, Informed w
        (if w.loop = .closed then
          act (.lookup l.request l.provider l.mediaId result)
            { w with lookups := w.lookups.eraseIdx index, remarks }
        else
          act (.lookup l.request l.provider l.mediaId result)
            { w with
              lookups := w.lookups.eraseIdx index
              queue := w.queue ++ [.item l.request l.mediaId found l.callback]
              remarks }) := by
      intro remarks found
      split
      · exact ⟨rfl, rfl, rfl, .same rfl, fun _ => rfl, by simp only [act]; omega⟩
      · rename_i ho
        refine ⟨rfl, rfl, rfl, ⟨_, rfl, by simp [Event.reportsChannel]⟩, fun hc => absurd hc ho, ?_⟩
        simp only [act, List.length_append, List.length_singleton]
        omega
    cases result with
    | ok item => exact hm w.remarks item
    | error fault => exact hm (.lookupFailed l.mediaId fault :: w.remarks) none

theorem Informed.load (h : Informed u v) : v.load ≤ u.load := by
  rw [World.load, World.load, h.fed.countP, h.session, Prod.Lex.toLex_le_toLex,
    Prod.Lex.toLex_le_toLex]
  exact .inr ⟨rfl, .inr ⟨rfl, h.fewer⟩⟩

end World

/-! Rounds of the loop. -/

/-- A round of a loop whose callbacks do nothing: lookups are answered, and an event is handled. -/
structure Round where
  answers : List (Except RemoteFault (Option Item) × Nat)
  transport : Transport

namespace Round

variable {κ : Type}

def steps (r : Round) : List (Step κ) :=
  (r.answers.map fun (result, index) => .answer result index) ++
    [.turn r.transport, .finish r.transport]

/-- The steps of as many rounds as given. -/
def stepsOf : Nat → (Nat → Round) → List (Step κ)
  | 0, _ => []
  | n + 1, rs => (rs 0).steps ++ stepsOf n fun i => rs (i + 1)

theorem stepsOf_add (n k : Nat) (rs : Nat → Round) :
    stepsOf (κ := κ) (n + k) rs = stepsOf n rs ++ stepsOf k fun i => rs (i + n) := by
  induction n generalizing rs with
  | zero => simp [stepsOf]
  | succ n ih =>
    rw [Nat.succ_add, stepsOf, ih, stepsOf]
    simp [Nat.add_assoc]

theorem stepsOf_succ (n : Nat) (rs : Nat → Round) :
    stepsOf (κ := κ) (n + 1) rs = stepsOf n rs ++ (rs n).steps := by
  rw [stepsOf_add]
  simp [stepsOf]

end Round

namespace World

variable {κ : Type} {u v w : World κ} {t : Transport} {e : Event κ} {r : Round}

theorem run_round (w : World κ) (r : Round) : ∃ v, Informed w v ∧
    w.run r.steps = (v.turn r.transport).finish r.transport := by
  refine ⟨w.run (r.answers.map fun (result, index) => .answer result index), ?_, ?_⟩
  · induction r.answers generalizing w with
    | nil => exact .refl w
    | cons answer answers ih => exact (informed_answer answer.1 answer.2 w).trans (ih _)
  · rw [Round.steps, run_append]
    rfl

/-- The loop can take an event. -/
def Ready (w : World κ) : Prop := w.handles ≠ 0 ∧ w.loop ≠ .handling ∧ w.loop ≠ .closed

theorem Informed.ready (h : Informed u v) (hr : u.Ready) : v.Ready := by
  rw [Ready, h.handles, h.loop]
  exact hr

theorem load_handled {rest : List (Event κ)} (ht : t.Reserved) (h : w.Ready)
    (hq : w.queue = e :: rest) :
    ((w.turn t).finish t).Ready ∧ ((w.turn t).finish t).load < w.load := by
  obtain ⟨h0, hh, hc⟩ := h
  obtain ⟨rest, remarks, hq, hv⟩ := turn_next t (next?_eq_some.mpr ⟨h0, hh, hc, rest, hq⟩)
  rw [hv]
  have hm := moves_handle (t := t) (w := { w with loop := .handling, remarks }) (by simp) hq
  have hr := (relieved_handle ht (w := { w with loop := .handling, queue := rest, remarks })
    (by simp) e).load
  generalize handle t { w with loop := .handling, queue := rest, remarks } e = v at hm hr
  obtain ⟨hl, hd⟩ := hm.frame
  have hd : v.handles ≠ 0 := fun hz => h0 (hd.symm.trans hz)
  have hf : v.finish t = { v with loop := .waiting } := (if_pos hl).trans (if_neg hd)
  rw [hf]
  refine ⟨⟨hd, by simp, by simp⟩, ?_⟩
  simpa only [load, hq] using hr

theorem load_idle (h : w.Ready) (hq : w.queue = []) :
    ((w.turn t).finish t).Ready ∧ ((w.turn t).finish t).load = w.load ∧
      ((w.turn t).finish t).queue = [] := by
  obtain ⟨h0, hh, hc⟩ := h
  obtain ⟨remarks, ht⟩ := turn_eq (t := t) hh hc
  rw [ht, awake_nil (w := { w with loop := .waiting, remarks }) h0 hq]
  have hf : finish t { w with loop := .waiting, remarks } = { w with loop := .waiting, remarks } :=
    if_neg (by simp)
  rw [hf]
  exact ⟨⟨h0, by simp, by simp⟩, rfl, hq⟩

/-- A round never makes the load greater, and it takes something away if it does not leave an
empty queue behind. -/
theorem load_round (hr : r.transport.Reserved) (h : w.Ready) :
    (w.run r.steps).Ready ∧ (w.run r.steps).load ≤ w.load ∧
      (w.queue ≠ [] ∨ (w.run r.steps).queue ≠ [] → (w.run r.steps).load < w.load) := by
  obtain ⟨v, hi, hv⟩ := w.run_round r
  rw [hv]
  cases hq : v.queue with
  | nil =>
    obtain ⟨hf, hl, he⟩ := load_idle (t := r.transport) (hi.ready h) hq
    obtain ⟨news, hn, -⟩ := hi.fed
    have hw : w.queue = [] := (List.append_eq_nil_iff.mp (hn.symm.trans hq)).1
    refine ⟨hf, hl ▸ hi.load, ?_⟩
    simp [hw, he]
  | cons e rest =>
    obtain ⟨hf, hl⟩ := load_handled hr (hi.ready h) hq
    have hlt := lt_of_lt_of_le hl hi.load
    exact ⟨hf, hlt.le, fun _ => hlt⟩

theorem load_rounds (h : w.Ready) (n : Nat) {rs : Nat → Round}
    (hrs : ∀ i, (rs i).transport.Reserved) :
    (w.run (Round.stepsOf n rs)).Ready ∧ (w.run (Round.stepsOf n rs)).load ≤ w.load := by
  induction n generalizing w rs with
  | zero => exact ⟨h, le_refl _⟩
  | succ n ih =>
    obtain ⟨hr, hl, -⟩ := load_round (hrs 0) h
    obtain ⟨hn, hm⟩ := ih hr (fun i => hrs (i + 1))
    rw [Round.stepsOf, run_append]
    exact ⟨hn, hm.trans hl⟩

/-- A session that is held drains its queue: as long as something waits the load goes down. -/
theorem drains_ready (h : w.Ready) (rs : Nat → Round) (hrs : ∀ i, (rs i).transport.Reserved) :
    ∃ n, ∀ m, n ≤ m → (w.run (Round.stepsOf m rs)).queue = [] := by
  induction hl : w.load using WellFoundedLT.induction generalizing w rs with
  | ind l ih =>
    subst hl
    by_cases hall : ∀ m, (w.run (Round.stepsOf m rs)).queue = []
    · exact ⟨0, fun m _ => hall m⟩
    · obtain ⟨m, hm⟩ := not_forall.mp hall
      -- Something waits after `m` rounds, so the round that follows takes something away.
      obtain ⟨hr, hle⟩ := load_rounds h m hrs
      obtain ⟨hr, -, hlt⟩ := load_round (hrs m) hr
      obtain ⟨n, hn⟩ := ih _ (lt_of_lt_of_le (hlt (.inl hm)) hle) hr
        (fun i => rs (i + (m + 1))) (fun i => hrs _) rfl
      refine ⟨m + 1 + n, fun k hk => ?_⟩
      obtain ⟨j, rfl⟩ := Nat.exists_eq_add_of_le hk
      rw [Nat.add_assoc, Round.stepsOf_add, run_append, Round.stepsOf_succ, run_append]
      exact hn (n + j) (Nat.le_add_right n j)

/-! The end of the loop. -/

/-- A closed loop has no queue. -/
def Sealed (w : World κ) : Prop := w.loop = .closed → w.queue = []

theorem Sealed.of_moves {ds : List Deed} (hl : w.loop ≠ .closed) (h : Moves ds w v) : v.Sealed :=
  fun hc => absurd (h.frame.1.symm.trans hc) hl

theorem sealed_withHandle (h : w.Sealed) {go : World κ → World κ}
    (hg : w.handles ≠ 0 → (go w).Sealed) : (w.withHandle go).Sealed := by
  simp only [withHandle]
  split
  · exact h
  · rename_i h0
    exact hg h0

theorem sealed_call (h : w.Sealed) {call : World κ → Except Fault (World κ)}
    (hc : w.handles ≠ 0 → ∀ v, call w = .ok v → v.Sealed) :
    (w.withHandle fun w => w.orSame (call w)).Sealed := by
  refine sealed_withHandle h fun h0 => ?_
  have hv := hc h0
  cases hr : call w with
  | error fault => exact h
  | ok v => exact hv v hr

theorem sealed_dropHandle (h : w.loop ≠ .closed) (t : Transport) : (w.dropHandle t).Sealed := by
  simp only [dropHandle]
  split
  · exact .of_moves (w := { w with handles := w.handles - 1 }) h moves_abandon
  · exact fun hc => absurd hc h

theorem sealed_finish (h : w.Sealed) (t : Transport) : (w.finish t).Sealed := by
  simp only [finish]
  split
  · split
    · exact .of_moves (w := { w with loop := .waiting }) (by simp) moves_abandon
    · exact fun hc => by simp at hc
  · exact h

theorem sealed_turn (h : w.Sealed) (t : Transport) : (w.turn t).Sealed := by
  have ht := w.turned t
  generalize w.turn t = v at ht ⊢
  cases ht with
  | busy => exact h
  | idle => exact fun hc => by simp at hc
  | ended => exact fun _ => rfl
  | @handled e rest remarks _ _ hq =>
    exact .of_moves (w := { w with loop := .handling, remarks }) (by simp)
      (moves_handle (by simp) hq)

/-- Nothing can be put into the queue of a closed loop. -/
theorem sealed_post (h : w.Sealed) (posting : Posting) : (w.post posting).Sealed := by
  by_cases hl : w.loop = .closed
  · have hq : (w.post posting).queue = w.queue := by
      cases posting <;> simp only [post, offer, hl, if_true] <;> split <;> rfl
    exact fun _ => hq.trans (h hl)
  · exact .of_moves hl (moves_post posting)

theorem Informed.sealed (h : Informed u v) (hu : u.Sealed) : v.Sealed := by
  intro hc
  have hl : u.loop = .closed := h.loop.symm.trans hc
  exact (h.shut hl).trans (hu hl)

theorem sealed_step (hs : w.Settled) (h : w.Sealed) (s : Step κ) : (w.step s).Sealed := by
  cases s with
  | connect t =>
    exact sealed_call h fun h0 _ hv => .of_moves (hs.open h0) (moves_connect (hs.open h0) hv)
  | disconnect t => exact sealed_withHandle h fun h0 => .of_moves (hs.open h0) moves_tearDown
  | subscribe t node options callback =>
    exact sealed_call h fun h0 _ hv => .of_moves (hs.open h0) (moves_subscribe (hs.open h0) hv)
  | unsubscribe t node options =>
    exact sealed_call h fun h0 _ hv => .of_moves (hs.open h0) (moves_unsubscribe (hs.open h0) hv)
  | getItem mediaId callback =>
    exact sealed_call h fun h0 _ hv => .of_moves (hs.open h0) (moves_getItem (hs.open h0) hv)
  | barrier =>
    exact sealed_withHandle h fun h0 =>
      .of_moves (hs.open h0) (moves_enqueue (hs.open h0) (e := .barrier) trivial)
  | cloneHandle => exact sealed_withHandle h fun h0 hc => absurd hc (hs.open h0)
  | dropHandle t => exact sealed_withHandle h fun h0 => sealed_dropHandle (hs.open h0) t
  | post posting => exact sealed_post h posting
  | turn t => exact sealed_turn h t
  | finish t => exact sealed_finish h t
  | answer result index => exact (informed_answer result index w).sealed h

theorem sealed_reachable (setting : Setting) (steps : List (Step κ)) :
    ((create setting).run steps).Sealed := by
  have h : ((create setting).run steps).Settled ∧ ((create setting).run steps).Sealed := by
    apply run_induction (P := fun _ w => w.Settled ∧ w.Sealed)
    · exact ⟨settled_create setting, fun _ => rfl⟩
    · intro _ s h
      exact ⟨(goes_step h.1 s).settled, sealed_step h.1 h.2 s⟩
  exact h.2

/-! From any world to an empty queue. -/

/-- A loop that has no session to handle events for throws away what waits. -/
theorem queue_awake (h0 : w.handles = 0) : (w.awake t).queue = [] := by
  simp only [awake]
  split
  · rename_i hq
    split
    · exact hq
    · exact hq
  · rw [if_pos h0]
    rfl

theorem gone_turn (h : w.Gone) (hw : w.Sealed) (t : Transport) :
    ((w.turn t).finish t).Gone ∧ ((w.turn t).finish t).queue = [] := by
  have hg : (w.turn t).Gone ∧ (w.turn t).queue = [] := by
    by_cases hc : w.loop = .closed
    · have ht : w.turn t = w := by simp [turn, hc]
      rw [ht]
      exact ⟨h, hw hc⟩
    · obtain ⟨remarks, ht⟩ := turn_eq (t := t) h.2 hc
      obtain ⟨_, loop, _, hs, hl⟩ := h.step (.turn t)
      refine ⟨?_, ht ▸ queue_awake h.1⟩
      have ht : w.turn t = _ := hs
      rw [ht]
      exact ⟨h.1, hl⟩
  have hf : (w.turn t).finish t = w.turn t := if_neg hg.1.2
  rw [hf]
  exact hg

theorem gone_round (h : w.Gone) (hw : w.Sealed) (r : Round) :
    (w.run r.steps).Gone ∧ (w.run r.steps).queue = [] := by
  obtain ⟨v, hi, hv⟩ := w.run_round r
  have hg : v.Gone := by
    rw [Gone, hi.handles, hi.loop]
    exact h
  rw [hv]
  exact gone_turn hg (hi.sealed hw) r.transport

theorem gone_rounds (h : w.Gone) (hw : w.Sealed) (rs : Nat → Round) (n : Nat) :
    (w.run (Round.stepsOf n rs)).Gone ∧ (w.run (Round.stepsOf n rs)).Sealed ∧
      (n ≠ 0 → (w.run (Round.stepsOf n rs)).queue = []) := by
  induction n with
  | zero => exact ⟨h, hw, fun h0 => absurd rfl h0⟩
  | succ n ih =>
    obtain ⟨hg, hq⟩ := gone_round ih.1 ih.2.1 (rs n)
    rw [Round.stepsOf_succ, run_append]
    exact ⟨hg, fun _ => hq, fun _ => hq⟩

/-- A loop that handles nothing just now drains its queue, or throws it away. -/
theorem drains_waiting (hl : w.loop ≠ .handling) (hc : w.loop = .closed → w.handles = 0)
    (hw : w.Sealed) (rs : Nat → Round) (hrs : ∀ i, (rs i).transport.Reserved) :
    ∃ n, ∀ m, n ≤ m → (w.run (Round.stepsOf m rs)).queue = [] := by
  by_cases h0 : w.handles = 0
  · exact ⟨1, fun m hm => (gone_rounds ⟨h0, hl⟩ hw rs m).2.2 (by omega)⟩
  · exact drains_ready ⟨h0, hl, fun h => h0 (hc h)⟩ rs hrs

/-- The round in which the handling of an event ends leaves the loop to wait. -/
theorem waiting_round (hl : w.loop = .handling) (r : Round) : (w.run r.steps).loop = .waiting := by
  obtain ⟨v, hi, hv⟩ := w.run_round r
  have hv' : v.loop = .handling := hi.loop.trans hl
  have ht : v.turn r.transport = v := by simp [turn, hv']
  rw [hv, ht, finish, if_pos hv']
  split
  · exact moves_abandon.frame.1
  · rfl

theorem drains (hc : w.loop = .closed → w.handles = 0) (hw : w.Sealed) {rs : Nat → Round}
    (hrs : ∀ i, (rs i).transport.Reserved) :
    ∃ n, ∀ m, n ≤ m → (w.run (Round.stepsOf m rs)).queue = [] := by
  by_cases hl : w.loop = .handling
  · have hf := waiting_round hl (rs 0)
    obtain ⟨n, hn⟩ := drains_waiting (w := w.run (rs 0).steps) (by simp [hf])
      (fun hc => by simp [hf] at hc) (fun hc => by simp [hf] at hc)
      (fun i => rs (i + 1)) (fun i => hrs (i + 1))
    refine ⟨n + 1, fun m hm => ?_⟩
    obtain ⟨k, rfl⟩ : ∃ k, m = k + 1 := ⟨m - 1, by omega⟩
    rw [Round.stepsOf, run_append]
    exact hn k (by omega)
  · exact drains_waiting hl hc hw rs hrs

/-- Whatever waits in the queue, a loop that is left to itself empties it in finitely many rounds,
each of which handles the first event, and from then on nothing waits after a round. Only providers
post meanwhile, in the calls that they get, and lookups that are under way are answered; calls may
fail. A closed loop has no queue of its own, and can be given none. -/
theorem drains_reachable (setting : Setting) (steps : List (Step κ)) (queue : List (Event κ))
    (hq : queue = ((create setting).run steps).queue ∨
      ((create setting).run steps).loop ≠ .closed)
    (rs : Nat → Round) (hrs : ∀ i, (rs i).transport.Reserved) :
    ∃ n, ∀ m, n ≤ m →
      (run { (create setting).run steps with queue } (Round.stepsOf m rs)).queue = [] := by
  have hs : ((create setting).run steps).Settled := settled_run (settled_create setting) steps
  have hw := sealed_reachable setting steps
  generalize (create setting).run steps = w at hs hw hq ⊢
  have hw : Sealed { w with queue } := by
    rcases hq with rfl | hl
    · exact hw
    · exact fun hc => absurd hc hl
  exact drains (w := { w with queue }) hs.closed hw hrs

/-- A prompt binder, and a provider that answers each connect call several times and is gone when
it hears of a subscription, of which it pushes children nevertheless. -/
def insistent : Transport where
  bind := Transport.prompt.bind
  call
    | p, .connect token => ⟨none, [
        .provider ⟨p, token⟩ (.accepted ⟨"root", "session", none⟩), .provider ⟨p, token⟩ .refused,
        .provider ⟨p, token⟩ (.accepted ⟨"root", "session", none⟩)]⟩
    | p, .add token node options => ⟨some .disconnected, [
        .provider ⟨p, token⟩ (.children ⟨node, none, options⟩),
        .provider ⟨p, token⟩ (.accepted ⟨"root", "session", none⟩)]⟩
    | _, _ => {}

theorem reserved_insistent : insistent.Reserved := by
  intro p call posting hp
  cases call <;> simp only [insistent, List.mem_cons, List.not_mem_nil, or_false] at hp
  · rcases hp with rfl | rfl | rfl <;> exact ⟨_, _, rfl⟩
  · rcases hp with rfl | rfl <;> exact ⟨_, _, rfl⟩

/-- The queue grows at first: one channel brings three answers, and the first of them brings two
notifications and a lost channel for the subscription. -/
theorem drains_insistent :
    let w : World Unit := (create ⟨⟨"package", "class"⟩, "client", none⟩).run [
      .subscribe insistent "node" none (), .connect insistent]
    let rs : Nat → Round := fun _ => ⟨[], insistent⟩
    w.queue.length = 1 ∧ (w.run (Round.stepsOf 1 rs)).queue.length = 3 ∧
      (w.run (Round.stepsOf 2 rs)).queue.length = 5 ∧ (∀ i, (rs i).transport.Reserved) ∧
      ∃ n, ∀ m, n ≤ m → (w.run (Round.stepsOf m rs)).queue = [] :=
  ⟨rfl, rfl, rfl, fun _ => reserved_insistent, drains_reachable (κ := Unit)
    ⟨⟨"package", "class"⟩, "client", none⟩ [
      .subscribe insistent "node" none (), .connect insistent] _ (.inl rfl) _
    fun _ => reserved_insistent⟩

end World
end MediaLink
