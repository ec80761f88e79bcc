import MediaLink.Proofs.Session.Consistency
import MediaLink.Proofs.Session.Likeness

/-! Two worlds that differ in the token of one binding, and in what is left over from an earlier
connection, do the same whatever happens to them. -/
namespace MediaLink

/-- The token of a binding in one world, and the one that stands for it in another. -/
structure Swap where
  kept : Token
  fresh : Token

namespace Swap

variable {s : Swap} {a b c d token : Token}

/-- The token of any other binding. -/
def Apart (s : Swap) (token : Token) : Prop := token ≠ s.kept ∧ token ≠ s.fresh

/-- The tokens that name the same binding in the two worlds. -/
inductive Pairs (s : Swap) : Token → Token → Prop where
  | held : s.Pairs s.kept s.fresh
  | other {token : Token} (h : s.Apart token) : s.Pairs token token

theorem Pairs.eq_iff (hab : s.Pairs a b) (hcd : s.Pairs c d) : a = c ↔ b = d := by
  cases hab with
  | held =>
    cases hcd with
    | held => simp
    | other h => exact iff_of_false (Ne.symm h.1) (Ne.symm h.2)
  | other h =>
    cases hcd with
    | held => exact iff_of_false h.1 h.2
    | other _ => rfl

end Swap

/-- The same act. A binding that is released is the same. -/
inductive Act.Paired {κ : Type} (s : Swap) : Act κ → Act κ → Prop where
  | unbind {a b} (h : s.Pairs a b) : Paired s (.unbind a) (.unbind b)
  | other {a} (h : ∀ token, a ≠ .unbind token) : Paired s a a

/-- Transports that answer alike, and post the same meanwhile. -/
structure Transport.Paired (s : Swap) (t t' : Transport) : Prop where
  granted : ∀ token, s.Apart token → (t'.bind token).granted = (t.bind token).granted
  bind : ∀ token, s.Apart token →
    List.Forall₂ (Posting.Paired s.Pairs) (t.bind token).posts (t'.bind token).posts
  failure : ∀ p c, (t'.call p c).failure = (t.call p c).failure
  call : ∀ p c, List.Forall₂ (Posting.Paired s.Pairs) (t.call p c).posts (t'.call p c).posts

/-- The same step, answered alike. -/
inductive Step.Paired {κ : Type} (s : Swap) : Step κ → Step κ → Prop where
  | connect {t t'} (h : t.Paired s t') : Paired s (.connect t) (.connect t')
  | disconnect {t t'} (h : t.Paired s t') : Paired s (.disconnect t) (.disconnect t')
  | subscribe {t t'} (h : t.Paired s t') (node options callback) :
      Paired s (.subscribe t node options callback) (.subscribe t' node options callback)
  | unsubscribe {t t'} (h : t.Paired s t') (node options) :
      Paired s (.unsubscribe t node options) (.unsubscribe t' node options)
  | getItem (mediaId callback) : Paired s (.getItem mediaId callback) (.getItem mediaId callback)
  | barrier : Paired s .barrier .barrier
  | cloneHandle : Paired s .cloneHandle .cloneHandle
  | dropHandle {t t'} (h : t.Paired s t') : Paired s (.dropHandle t) (.dropHandle t')
  | post {x y} (h : x.Paired s.Pairs y) : Paired s (.post x) (.post y)
  | turn {t t'} (h : t.Paired s t') : Paired s (.turn t) (.turn t')
  | finish {t t'} (h : t.Paired s t') : Paired s (.finish t) (.finish t')
  | answer (result index) : Paired s (.answer result index) (.answer result index)

variable {κ : Type} {s : Swap}

/-- The same session but for the token of its binding. What is known of a connection counts only
while there is one. -/
structure Session.Kin (s : Swap) (a b : Session κ) : Prop where
  phase : b.phase = a.phase
  attempt : b.attempt = a.attempt
  binding : Option.Rel s.Pairs a.binding b.binding
  provider : b.provider = a.provider
  subscriptions : b.subscriptions = a.subscriptions
  known : a.phase = .connected →
    b.root = a.root ∧ b.sessionToken = a.sessionToken ∧ b.extras = a.extras

namespace Session.Kin

variable {a b : Session κ} {token : Token}

theorem holds (h : a.Kin s b) {x y : Token} (hxy : s.Pairs x y) : b.holds y = a.holds x := by
  have hb := h.binding
  simp only [Session.holds]
  generalize a.binding = m at hb
  generalize b.binding = n at hb
  cases hb with
  | none => rfl
  | some hmn => simp [hmn.eq_iff hxy]

theorem isSome_binding (h : a.Kin s b) : b.binding.isSome = a.binding.isSome := by
  have hb := h.binding
  generalize a.binding = m at hb
  generalize b.binding = n at hb
  cases hb <;> rfl

/-- What is asked of a connection is the same, if it is the same while there is one. -/
theorem whenConnected {α : Type} (h : a.Kin s b) (operation : String) {x y : α}
    (hxy : a.phase = .connected → y = x) :
    b.whenConnected operation y = a.whenConnected operation x := by
  simp only [Session.whenConnected, h.phase]
  split
  · rename_i hp
    rw [hxy hp]
  · rfl

theorem reset (h : a.Kin s b) : a.reset.Kin s b.reset :=
  ⟨rfl, rfl, .none, rfl, h.subscriptions, fun _ => ⟨rfl, rfl, rfl⟩⟩

theorem begin (h : a.Kin s b) (ht : s.Apart token) : (a.begin token).Kin s (b.begin token) :=
  ⟨rfl, rfl, .some (.other ht), h.provider, h.subscriptions, nofun⟩

theorem resume (h : a.Kin s b) (token : Token) : (a.resume token).Kin s (b.resume token) :=
  ⟨rfl, rfl, h.binding, h.provider, h.subscriptions, nofun⟩

theorem asked (h : a.Kin s b) (p : Provider) :
    Session.Kin s { a with provider := some p } { b with provider := some p } :=
  ⟨h.phase, h.attempt, h.binding, rfl, h.subscriptions, h.known⟩

theorem complete (h : a.Kin s b) (root : String) (sessionToken : SessionToken)
    (extras : Option Payload) :
    (a.complete root sessionToken extras).Kin s (b.complete root sessionToken extras) :=
  ⟨rfl, h.attempt, h.binding, h.provider, h.subscriptions, fun _ => ⟨rfl, rfl, rfl⟩⟩

theorem suspend (h : a.Kin s b) : a.suspend.Kin s b.suspend :=
  ⟨rfl, rfl, h.binding, rfl, h.subscriptions, nofun⟩

theorem withSubscriptions (h : a.Kin s b) (subscriptions : Registry κ) :
    Session.Kin s { a with subscriptions } { b with subscriptions } :=
  ⟨h.phase, h.attempt, h.binding, h.provider, rfl, h.known⟩

end Session.Kin

namespace World

variable {first second : List (Act κ)} {u v : World κ} {t t' : Transport}

/-- The same world but for the token of one binding, for what is left over from an earlier
connection, and for what was done before the two parted. -/
structure Twins (s : Swap) (first second : List (Act κ)) (u v : World κ) : Prop where
  setting : v.setting = u.setting
  session : u.session.Kin s v.session
  queue : List.Forall₂ (Event.Paired s.Pairs) u.queue v.queue
  lookups : v.lookups = u.lookups
  binderSinks : ∀ {a b}, s.Pairs a b → (a ∈ u.binderSinks ↔ b ∈ v.binderSinks)
  kept_handed : s.kept ∈ u.binderSinks
  providerSinks : v.providerSinks = u.providerSinks
  handles : v.handles = u.handles
  loop : v.loop = u.loop
  tokens : v.tokens = u.tokens
  kept_made : s.kept.serial ≤ u.tokens
  fresh_made : s.fresh.serial ≤ u.tokens
  requests : v.requests = u.requests
  history : ∃ acts acts', List.Forall₂ (Act.Paired s) acts acts' ∧
    u.history = acts ++ first ∧ v.history = acts' ++ second

namespace Twins

theorem act (h : Twins s first second u v) {a b : Act κ} (hab : a.Paired s b) :
    Twins s first second (u.act a) (v.act b) := by
  obtain ⟨acts, acts', hp, hu, hv⟩ := h.history
  exact { h with
    history := ⟨a :: acts, b :: acts', .cons hab hp, congrArg (a :: ·) hu, congrArg (b :: ·) hv⟩ }

theorem withSession (h : Twins s first second u v) {a b : Session κ} (hk : a.Kin s b) :
    Twins s first second { u with session := a } { v with session := b } :=
  { h with session := hk }

theorem release (h : Twins s first second u v) :
    Twins s first second u.release v.release := by
  have hc := h.withSession h.session.reset
  have hb := h.session.binding
  simp only [World.release]
  generalize u.session.binding = m at hb
  generalize v.session.binding = n at hb
  cases hb with
  | none => exact hc
  | some hab => exact hc.act (.unbind hab)

theorem change (h : Twins s first second u v) {f : Session κ → Session κ}
    (hf : Session.Change s.Apart f) :
    Twins s first second { u with session := f u.session } { v with session := f v.session } := by
  apply h.withSession
  cases hf with
  | begin ht => exact h.session.begin ht
  | resume token => exact h.session.resume token
  | ask p => exact h.session.asked p
  | complete root token extras => exact h.session.complete root token extras
  | suspend => exact h.session.suspend
  | subscribe subscriptions => exact h.session.withSubscriptions subscriptions

theorem withBinderSink (h : Twins s first second u v) {token : Token} (ht : s.Apart token) :
    Twins s first second { u with binderSinks := u.binderSinks ++ [token] }
      { v with binderSinks := v.binderSinks ++ [token] } := by
  refine { h with
    binderSinks := fun {a b} hab => ?_
    kept_handed := List.mem_append_left _ h.kept_handed }
  rw [List.mem_append, List.mem_append, h.binderSinks hab, List.mem_singleton,
    List.mem_singleton, hab.eq_iff (.other ht)]

/-- No new token is that of the binding. -/
theorem apart (h : Twins s first second u v) : s.Apart u.nextToken := by
  have hk := h.kept_made
  have hf := h.fresh_made
  constructor
  · intro he
    rw [← he, World.nextToken] at hk
    exact absurd hk (by simp)
  · intro he
    rw [← he, World.nextToken] at hf
    exact absurd hf (by simp)

/-- The queue that is left, whatever has become of the loop. -/
theorem withQueue (h : Twins s first second u v) (loop : Loop) {queue queue' : List (Event κ)}
    (hq : List.Forall₂ (Event.Paired s.Pairs) queue queue') :
    Twins s first second { u with loop, queue }
      { v with loop, queue := queue', handles := u.handles } :=
  { h with queue := hq, handles := rfl, loop := rfl }

def likeness (s : Swap) (first second : List (Act κ)) : Likeness κ where
  rel := Twins s first second
  bindings := s.Pairs
  fresh := s.Apart
  phase h := h.session.phase
  attempt h := h.session.attempt
  provider h := h.session.provider
  subscriptions h := h.session.subscriptions
  bound h := h.session.isSome_binding
  holds h := h.session.holds
  binderSinks h hab := (h.binderSinks hab).symm
  providerSinks h := h.providerSinks
  lookups h := h.lookups
  handles h := h.handles
  tokens h := h.tokens
  requests h := h.requests
  handling h := by rw [h.loop]
  closed h := by rw [h.loop]
  unused := apart
  remark h _ _ := { h with }
  act h _ ha := h.act (.other ha)
  release := release
  change h hf := h.change hf
  append h _ he := { h with queue := List.rel_append h.queue (.cons he .nil) }
  withToken h := { h with
    tokens := congrArg (· + 1) h.tokens
    kept_made := Nat.le_succ_of_le h.kept_made
    fresh_made := Nat.le_succ_of_le h.fresh_made }
  withBinderSink h ht := h.withBinderSink ht
  withProviderSink h sink := { h with providerSinks := congrArg (· ++ [sink]) h.providerSinks }
  withRequests h _ := { h with requests := rfl }
  withLookups h _ := { h with lookups := rfl }
  withHandles h _ := { h with handles := rfl }
  withWaiting h := { h with loop := rfl }

theorem answers (ht : t.Paired s t') : (likeness s first second).Answers t t' :=
  (likeness s first second).answers_of_same ht.granted ht.bind
    fun p c => ⟨ht.failure p c, ht.call p c⟩

theorem requestConnect (h : Twins s first second u v) (ht : t.Paired s t') (p : Provider)
    (token : Token) :
    Twins s first second (u.requestConnect t p token) (v.requestConnect t' p token) :=
  (likeness s first second).requestConnect (answers ht) h p token

/-- Somebody was handed a sink in both worlds. -/
theorem hasPosters (h : Twins s first second u v) : v.hasPosters = u.hasPosters := by
  have hu : u.binderSinks.isEmpty = false :=
    List.isEmpty_eq_false_iff_exists_mem.mpr ⟨_, h.kept_handed⟩
  have hv : v.binderSinks.isEmpty = false :=
    List.isEmpty_eq_false_iff_exists_mem.mpr ⟨_, (h.binderSinks .held).mp h.kept_handed⟩
  simp [World.hasPosters, hu, hv]

theorem awake (h : Twins s first second u v) (ht : t.Paired s t') :
    Twins s first second (u.awake t) (v.awake t') := by
  let L := likeness s first second
  have hq := h.queue
  simp only [World.awake, h.handles, h.hasPosters]
  cases hu : u.queue with
  | nil =>
    have hv : v.queue = [] := by rwa [hu, List.forall₂_nil_left_iff] at hq
    have hc := h.withQueue .closed hq
    rw [hu, hv] at hc
    simp only [hv]
    split
    · exact L.remark hc _ _
    · exact h
  | cons e rest =>
    obtain ⟨e', rest', he, hr, hv⟩ := List.forall₂_cons_left_iff.mp (hu ▸ hq)
    simp only [hv]
    split
    · exact L.remark (L.remark (h.withQueue .closed .nil) _ _) _ _
    · exact L.handle (answers ht) (L.remark (h.withQueue .handling hr) _ _) he

theorem turn (h : Twins s first second u v) (ht : t.Paired s t') :
    Twins s first second (u.turn t) (v.turn t') := by
  let L := likeness s first second
  simp only [World.turn, h.loop]
  split
  · exact awake (L.remark (L.withWaiting h) _ _) ht
  · exact h.awake ht
  · exact h
  · exact h

theorem step (h : Twins s first second u v) {a b : Step κ} (hab : a.Paired s b) :
    Twins s first second (u.step a) (v.step b) := by
  let L := likeness s first second
  cases hab with
  | connect ht => exact L.call h (L.connect (answers ht) h)
  | disconnect ht => exact L.withHandle h (L.tearDown (answers ht) h)
  | subscribe ht node options callback =>
    exact L.call h (L.subscribe (answers ht) h node options callback)
  | unsubscribe ht node options => exact L.call h (L.unsubscribe (answers ht) h node options)
  | getItem mediaId callback => exact L.call h (L.getItem h mediaId callback)
  | barrier => exact L.withHandle h (L.enqueue h .barrier (by simp))
  | cloneHandle => exact L.withHandle h (L.cloneHandle h)
  | dropHandle ht => exact L.withHandle h (L.dropHandle (answers ht) h)
  | post hp => exact L.post h hp
  | turn ht => exact h.turn ht
  | finish ht => exact L.finish (answers ht) h
  | answer result index => exact L.answer h result index

theorem run (h : Twins s first second u v) {steps steps' : List (Step κ)}
    (hs : List.Forall₂ (Step.Paired s) steps steps') :
    Twins s first second (u.run steps) (v.run steps') := by
  induction hs generalizing u v with
  | nil => exact h
  | cons hab _ ih => exact ih (h.step hab)

end Twins

end World
end MediaLink
