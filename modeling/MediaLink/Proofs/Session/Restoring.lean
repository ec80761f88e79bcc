import MediaLink.Proofs.Session.Bindings
import MediaLink.Proofs.Session.Twins

/-! A suspended connection can come back over the binding that it kept, or give way to a new one. A
session does the same after either. -/
namespace MediaLink.World

variable {κ : Type} {ds : List Deed} {u v w : World κ} {e : Event κ} {t t' : Transport}
  {p : Provider} {kept : Token}

/-- The binder was handed the sink of the binding that is held. -/
def Anchored (w : World κ) : Prop :=
  ∀ token, w.session.binding = some token → token ∈ w.binderSinks

theorem anchored_move (hm : Move ds u v) (h : u.Anchored) : v.Anchored := by
  cases hm with
  | aside | hear | report | close | insert | erase | ignore | suspend | reach | restore | accept =>
    exact h
  | begin =>
    intro token ht
    cases ht
    exact List.mem_append_right _ List.mem_cons_self
  | letGo =>
    rw [release_eq]
    intro token ht
    cases ht
  | abort | fail =>
    rw [failAttempt_eq]
    intro token ht
    cases ht
  | leave =>
    intro token ht
    cases ht

theorem anchored_reachable (setting : Setting) (steps : List (Step κ)) :
    ((create setting).run steps).Anchored := by
  apply run_keep
  · intro token ht
    cases ht
  · exact fun _ _ h => h
  · exact anchored_move

theorem run_post (posts : List Posting) (w : World κ) :
    w.run (posts.map .post) = w.postAll posts := by
  rw [run, List.foldl_map]
  rfl

/-- The only event that waits is handled, once the callback that may still run has returned. -/
theorem run_finish_turn (hh : w.handles ≠ 0) (hl : w.loop ≠ .closed) (hq : w.queue = [e])
    (f t : Transport) : ∃ remarks,
      w.run [.finish f, .turn t] =
        handle t { w with loop := .handling, queue := [], remarks } e := by
  obtain ⟨loop, hf, hn⟩ : ∃ loop, w.finish f = { w with loop } ∧ loop ≠ .handling ∧
      loop ≠ .closed := by
    by_cases hr : w.loop = .handling
    · exact ⟨.waiting, (if_pos hr).trans (if_neg hh), by simp⟩
    · exact ⟨w.loop, if_neg hr, hr, hl⟩
  have he : next? { w with loop } = some e := by simp [next?, hh, hn, hq]
  obtain ⟨rest, remarks, hr, ht⟩ := turn_next t he
  obtain rfl : rest = [] := (List.cons.inj (hr.symm.trans hq)).2
  refine ⟨remarks, ?_⟩
  rw [← ht, ← hf]
  rfl

/-- The binder reports that the binding that was kept is bound again. -/
theorem run_restore (hp : w.session.phase = .suspended) (hb : w.session.binding = some kept)
    (hs : kept ∈ w.binderSinks) (hq : w.queue = []) (hh : w.handles ≠ 0) (hl : w.loop ≠ .closed)
    (f t : Transport) : ∃ remarks,
      w.run [.post (.binder kept (.bound p)), .finish f, .turn t] =
        requestConnect t p w.nextToken (startAttempt Session.resume
          { w with loop := .handling, queue := [], remarks }).1 := by
  have hw : w.post (.binder kept (.bound p)) =
      { w with queue := [.binder kept (.bound p)] } := by
    simp [post, hs, offer, hl, hq]
  obtain ⟨remarks, hr⟩ := run_finish_turn
    (w := { w with queue := [.binder kept (.bound p)] }) hh hl rfl f t
  refine ⟨.restored w.nextToken :: remarks, ?_⟩
  calc w.run [.post (.binder kept (.bound p)), .finish f, .turn t]
      = (w.post (.binder kept (.bound p))).run [.finish f, .turn t] := rfl
    _ = handle t { w with loop := .handling, queue := [], remarks }
          (.binder kept (.bound p)) := by rw [hw, hr]
    _ = _ := by
      simp [handle, ifHeld, Session.holds, hb, onBound, hp, startAttempt, nextToken, remark, act]

/-- The application connects again. The binder accepts and reports the new binding bound, at once
or later. -/
theorem run_reconnect (hp : w.session.phase = .suspended) (hb : w.session.binding = some kept)
    (hq : w.queue = []) (hh : w.handles ≠ 0) (hl : w.loop ≠ .closed) {c : Transport}
    {later : List Posting} (hg : (c.bind w.nextToken).granted)
    (hc : (c.bind w.nextToken).posts ++ later = [.binder w.nextToken (.bound p)])
    (f t : Transport) : ∃ remarks,
      w.run (.connect c :: (later.map .post ++ [.finish f, .turn t])) =
        requestConnect t p w.nextToken
          { w with
            session := w.session.reset.begin w.nextToken
            queue := []
            binderSinks := w.binderSinks ++ [w.nextToken]
            loop := .handling
            tokens := w.tokens + 1
            history := .bind w.nextToken true :: .started w.nextToken :: .unbind kept :: w.history
            remarks } := by
  let bound : World κ :=
    { w with
      session := w.session.reset.begin w.nextToken
      queue := [.binder w.nextToken (.bound p)]
      binderSinks := w.binderSinks ++ [w.nextToken]
      tokens := w.tokens + 1
      history := .bind w.nextToken true :: .started w.nextToken :: .unbind kept :: w.history
      remarks := .connecting w.nextToken :: .releasing :: w.remarks }
  have hw : w.run (.connect c :: later.map .post) = bound := by
    have ht : (c.bind ⟨w.tokens + 1⟩).granted = true := hg
    rw [run, List.foldl_cons, ← run, run_post]
    -- The report comes while the binder is being asked, or after that.
    rcases List.append_eq_singleton_iff.mp hc with ⟨hn, hr⟩ | ⟨hn, hr⟩
    · have hn : (c.bind ⟨w.tokens + 1⟩).posts = [] := hn
      simp [bound, hr, step, withHandle, hh, orSame, connect, hp, attemptConnect, startAttempt,
        requestBinding, release, hb, ht, hn, postAll, post, offer, hl, hq, act, remark, nextToken]
    · have hn : (c.bind ⟨w.tokens + 1⟩).posts = [.binder w.nextToken (.bound p)] := hn
      simp [bound, hr, step, withHandle, hh, orSame, connect, hp, attemptConnect, startAttempt,
        requestBinding, release, hb, ht, hn, postAll, post, offer, hl, hq, act, remark, nextToken]
  obtain ⟨remarks, hr⟩ := run_finish_turn (w := bound) hh hl rfl f t
  refine ⟨remarks, ?_⟩
  calc w.run (.connect c :: (later.map .post ++ [.finish f, .turn t]))
      = (w.run (.connect c :: later.map .post)).run [.finish f, .turn t] := by
        rw [← run_append]
        rfl
    _ = handle t { bound with loop := .handling, queue := [], remarks }
          (.binder w.nextToken (.bound p)) := by rw [hw, hr]
    _ = _ := by
      simp [bound, handle, ifHeld, Session.holds, Session.begin, onBound]

/-- When the binding is bound again, or the new one is, the two worlds differ in nothing else. -/
theorem twins_bound (hp : w.session.phase = .suspended) (hb : w.session.binding = some kept)
    (hs : w.Sound) (ha : w.Anchored) (hk : kept.serial ≤ w.tokens) (r r' : List (Remark κ)) :
    Twins ⟨kept, w.nextToken⟩ (.started w.nextToken :: w.history)
      (.bind w.nextToken true :: .started w.nextToken :: .unbind kept :: w.history)
      (startAttempt Session.resume { w with loop := .handling, queue := [], remarks := r }).1
      { w with
        session := w.session.reset.begin w.nextToken
        queue := []
        binderSinks := w.binderSinks ++ [w.nextToken]
        loop := .handling
        tokens := w.tokens + 1
        history := .bind w.nextToken true :: .started w.nextToken :: .unbind kept :: w.history
        remarks := r' } := by
  obtain ⟨-, -, hn⟩ := hs.consistent.suspended hp
  refine
    { setting := rfl
      session := ⟨rfl, rfl, ?_, hn.symm, rfl, nofun⟩
      queue := .nil
      lookups := rfl
      binderSinks := ?_
      kept_handed := ha kept hb
      providerSinks := rfl
      handles := rfl
      loop := rfl
      tokens := rfl
      kept_made := Nat.le_succ_of_le hk
      fresh_made := Nat.le_refl _
      requests := rfl
      history := ⟨[], [], .nil, rfl, rfl⟩ }
  · exact hb ▸ .some .held
  · intro a b hab
    cases hab with
    | held => simpa [startAttempt, act] using ha kept hb
    | other h => simpa [startAttempt, act] using fun he => absurd he h.2

/-- An application sees no difference: the state, the results of its calls and the registry are
the same. -/
structure Indistinct (u v : World κ) : Prop where
  phase : v.session.phase = u.session.phase
  root : v.root = u.root
  sessionToken : v.sessionToken = u.sessionToken
  extras : v.extras = u.extras
  component : v.component = u.component
  isConnected : v.isConnected = u.isConnected
  inspect : v.inspect = u.inspect
  connects : ∀ t t', (v.connect t').map (fun _ => ()) = (u.connect t).map fun _ => ()
  registry : v.session.subscriptions = u.session.subscriptions

theorem Twins.indistinct {s : Swap} {first second : List (Act κ)}
    (h : Twins s first second u v) : Indistinct u v := by
  have hp := h.session.phase
  refine ⟨hp, ?_, ?_, ?_, ?_, ?_, ?_, ?_, h.session.subscriptions⟩
  · apply h.session.whenConnected
    intro hc
    rw [(h.session.known hc).1]
  · have ht : v.session.whenConnected "session_token" v.session.sessionToken =
        u.session.whenConnected "session_token" u.session.sessionToken := by
      apply h.session.whenConnected
      intro hc
      exact (h.session.known hc).2.1
    rw [sessionToken, sessionToken, ht, hp]
  · apply h.session.whenConnected
    intro hc
    exact (h.session.known hc).2.2
  · rw [component, component, h.setting]
    apply h.session.whenConnected
    intro _
    rfl
  · rw [isConnected, isConnected, hp]
  · rw [inspect, inspect, hp, h.setting]
  · intro t t'
    simp only [World.connect, hp]
    split <;> rfl

/-- The two ways to go on lead to twins. -/
theorem twins_restored (hp : w.session.phase = .suspended) (hb : w.session.binding = some kept)
    (hs : w.Sound) (ha : w.Anchored) (hk : kept.serial ≤ w.tokens) (hq : w.queue = [])
    (hh : w.handles ≠ 0) (hl : w.loop ≠ .closed) {c : Transport} {later : List Posting}
    (hg : (c.bind w.nextToken).granted)
    (hc : (c.bind w.nextToken).posts ++ later = [.binder w.nextToken (.bound p)])
    (ht : t.Paired ⟨kept, w.nextToken⟩ t') (f g : Transport) :
    Twins ⟨kept, w.nextToken⟩ (.started w.nextToken :: w.history)
      (.bind w.nextToken true :: .started w.nextToken :: .unbind kept :: w.history)
      (w.run [.post (.binder kept (.bound p)), .finish f, .turn t])
      (w.run (.connect c :: (later.map .post ++ [.finish g, .turn t']))) := by
  obtain ⟨r, hu⟩ := run_restore (p := p) hp hb (ha kept hb) hq hh hl f t
  obtain ⟨r', hv⟩ := run_reconnect hp hb hq hh hl hg hc g t'
  rw [hu, hv]
  exact (twins_bound hp hb hs ha hk r r').requestConnect ht p w.nextToken

/-- A suspended session whose queue is empty keeps its binding. Suppose that this is bound again to
a provider, or else that the application connects, the binder accepts, and the new binding is bound
to that provider. Whatever follows, with each notification through a sink of the same binding or
attempt, the application cannot tell which it was: the states, the results, the acts and the
registry are the same, but that the one binding stands for the other. In the second world the first
binding was released and the other acquired before. -/
theorem restoring_indistinct_reachable (setting : Setting) (before : List (Step κ)) :
    let w := (create setting).run before
    w.session.phase = .suspended → w.queue = [] → w.handles ≠ 0 →
    ∃ kept, w.session.binding = some kept ∧
      ∀ (p : Provider) (c f g t t' : Transport) (later : List Posting)
        (steps steps' : List (Step κ)),
        (c.bind w.nextToken).granted →
        (c.bind w.nextToken).posts ++ later = [.binder w.nextToken (.bound p)] →
        t.Paired ⟨kept, w.nextToken⟩ t' →
        List.Forall₂ (Step.Paired ⟨kept, w.nextToken⟩) steps steps' →
        let u := w.run ([.post (.binder kept (.bound p)), .finish f, .turn t] ++ steps)
        let v := w.run (.connect c :: (later.map .post ++ [.finish g, .turn t']) ++ steps')
        Indistinct u v ∧
        Option.Rel (Swap.Pairs ⟨kept, w.nextToken⟩) u.session.binding v.session.binding ∧
        ∃ acts acts', List.Forall₂ (Act.Paired ⟨kept, w.nextToken⟩) acts acts' ∧
          u.history = acts ++ .started w.nextToken :: w.history ∧
          v.history = acts' ++
            .bind w.nextToken true :: .started w.nextToken :: .unbind kept :: w.history := by
  intro w hp hq hh
  have hs : w.Sound := sound_reachable setting before
  have ha : w.Anchored := anchored_reachable setting before
  have hl : w.loop ≠ .closed := (settled_run (settled_create setting) before).open hh
  obtain ⟨kept, hb⟩ := Option.isSome_iff_exists.mp (hs.consistent.suspended hp).1
  have hk : kept.serial ≤ w.tokens := by
    obtain ⟨released, -, -, hm⟩ : w.Alternating := alternating_reachable setting before
    apply hm
    rw [hb]
    exact List.mem_append_right _ List.mem_cons_self
  refine ⟨kept, hb, fun p c f g t t' later steps steps' hg hc ht hsteps => ?_⟩
  intro u v
  have h : Twins ⟨kept, w.nextToken⟩ (.started w.nextToken :: w.history)
      (.bind w.nextToken true :: .started w.nextToken :: .unbind kept :: w.history) u v := by
    simp only [u, v]
    rw [run_append, run_append]
    exact (twins_restored hp hb hs ha hk hq hh hl hg hc ht f g).run hsteps
  exact ⟨h.indistinct, h.session.binding, h.history⟩

/-- The transport posts through sinks of bindings only when it is asked for one. -/
theorem prompt_paired (s : Swap) : Transport.prompt.Paired s .prompt := by
  refine ⟨fun _ _ => rfl, fun token ht => ?_, fun _ _ => rfl, fun p call => ?_⟩
  · exact .cons (.binder (.other ht) _) .nil
  · cases call with
    | connect token => exact .cons (.provider _ _) .nil
    | disconnect | add | remove => exact .nil

/-- A connection that came back is lost again and given up, as is the one in its place. -/
theorem restoring_indistinct_lost :
    let w : World Unit := (create ⟨⟨"package", "class"⟩, "client", none⟩).run [
      .connect .prompt, .turn .prompt, .finish .prompt, .turn .prompt, .finish .prompt,
      .post (.binder ⟨1⟩ .unbound), .turn .prompt, .finish .prompt]
    let u := w.run ([.post (.binder ⟨1⟩ (.bound ⟨0⟩)), .finish .prompt, .turn .prompt] ++ [
      .finish .prompt, .turn .prompt, .finish .prompt, .post (.binder ⟨1⟩ .unbound),
      .turn .prompt, .finish .prompt, .connect .prompt])
    let v := w.run ([.connect .prompt, .finish .prompt, .turn .prompt] ++ [
      .finish .prompt, .turn .prompt, .finish .prompt, .post (.binder ⟨2⟩ .unbound),
      .turn .prompt, .finish .prompt, .connect .prompt])
    w.session.phase = .suspended ∧ Indistinct u v ∧ v.session.phase = .connecting ∧
      u.binderCalls = [.bind ⟨1⟩, .unbind ⟨1⟩, .bind ⟨3⟩] ∧
      v.binderCalls = [.bind ⟨1⟩, .unbind ⟨1⟩, .bind ⟨2⟩, .unbind ⟨2⟩, .bind ⟨3⟩] := by
  intro w u v
  obtain ⟨kept, hb, h⟩ := restoring_indistinct_reachable (κ := Unit)
    ⟨⟨"package", "class"⟩, "client", none⟩ [
      .connect .prompt, .turn .prompt, .finish .prompt, .turn .prompt, .finish .prompt,
      .post (.binder ⟨1⟩ .unbound), .turn .prompt, .finish .prompt] rfl rfl (by decide)
  obtain rfl : ⟨1⟩ = kept := Option.some.inj hb
  have ht := prompt_paired ⟨⟨1⟩, ⟨2⟩⟩
  obtain ⟨hi, -⟩ := h ⟨0⟩ .prompt .prompt .prompt .prompt .prompt [] [
    .finish .prompt, .turn .prompt, .finish .prompt, .post (.binder ⟨1⟩ .unbound),
    .turn .prompt, .finish .prompt, .connect .prompt] [
    .finish .prompt, .turn .prompt, .finish .prompt, .post (.binder ⟨2⟩ .unbound),
    .turn .prompt, .finish .prompt, .connect .prompt] rfl rfl ht
    (.cons (.finish ht) (.cons (.turn ht) (.cons (.finish ht) (.cons (.post (.binder .held _))
      (.cons (.turn ht) (.cons (.finish ht) (.cons (.connect ht) .nil)))))))
  exact ⟨rfl, hi, by decide +kernel, by decide +kernel, by decide +kernel⟩

end MediaLink.World
