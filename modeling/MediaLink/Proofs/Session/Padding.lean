import MediaLink.Proofs.Session.Likeness

/-! Two worlds that differ in what is remarked on, and in padding between the events that wait,
stay alike whatever they do. -/
namespace MediaLink

/-- The second list is the first with more elements put anywhere, all of the given kind. -/
inductive Padded {α : Type} (S : α → Prop) : List α → List α → Prop where
  | nil : Padded S [] []
  | keep (x : α) {q p} (h : Padded S q p) : Padded S (x :: q) (x :: p)
  | pad {x : α} (hx : S x) {q p} (h : Padded S q p) : Padded S q (x :: p)

namespace Padded

variable {α : Type} {S T : α → Prop} {q p : List α} {x : α}

theorem refl : ∀ q : List α, Padded S q q
  | [] => .nil
  | x :: q => .keep x (refl q)

theorem append (h : Padded S q p) (news : List α) : Padded S (q ++ news) (p ++ news) := by
  induction h with
  | nil => exact refl news
  | keep x _ ih => exact .keep x ih
  | pad hx _ ih => exact .pad hx ih

theorem mono (hs : ∀ x, S x → T x) (h : Padded S q p) : Padded T q p := by
  induction h with
  | nil => exact .nil
  | keep x _ ih => exact .keep x ih
  | pad hx _ ih => exact .pad (hs _ hx) ih

theorem insert {first later : List α} (hx : S x) (h : Padded S q (first ++ later)) :
    Padded S q (first ++ x :: later) := by
  induction first generalizing q with
  | nil => exact .pad hx h
  | cons y first ih =>
    cases h with
    | keep _ h => exact .keep y (ih h)
    | pad hy h => exact .pad hy (ih h)

/-- An element of the given kind that has gone from the first list is padding. -/
theorem drop (hx : S x) (h : Padded S (x :: q) p) : Padded S q p := by
  -- Once the element itself is met in the second list, it counts as padding there.
  generalize hl : x :: q = l at h
  induction h with
  | nil => cases hl
  | keep y h _ =>
    cases hl
    exact .pad hx h
  | pad hy _ ih => exact .pad hy (ih hl)

/-- The same head can be taken from both lists. -/
theorem tail (h : Padded S (x :: q) (x :: p)) : Padded S q p := by
  cases h with
  | keep _ h => exact h
  | pad hx h => exact h.drop hx

end Padded

namespace World

variable {κ : Type} {S : Event κ → Prop} {u v : World κ} {t : Transport}

/-- The same world but for padding in the queue, remarks, and whether the loop has begun. -/
structure Alike (S : Event κ → Prop) (u v : World κ) : Prop where
  setting : v.setting = u.setting
  session : v.session = u.session
  queue : Padded S u.queue v.queue
  lookups : v.lookups = u.lookups
  binderSinks : v.binderSinks = u.binderSinks
  providerSinks : v.providerSinks = u.providerSinks
  handles : v.handles = u.handles
  tokens : v.tokens = u.tokens
  requests : v.requests = u.requests
  history : v.history = u.history
  open_first : u.loop ≠ .closed
  open_second : v.loop ≠ .closed
  handling : v.loop = .handling ↔ u.loop = .handling

/-- Nobody holds the session any more, and no event will be handled. -/
def Gone (w : World κ) : Prop := w.handles = 0 ∧ w.loop ≠ .handling

namespace Alike

theorem refl (h : u.loop ≠ .closed) : Alike S u u :=
  ⟨rfl, rfl, .refl _, rfl, rfl, rfl, rfl, rfl, rfl, rfl, h, h, .rfl⟩

def likeness (S : Event κ → Prop) : Likeness κ where
  rel := Alike S
  bindings := Eq
  fresh _ := True
  phase h := by rw [h.session]
  attempt h := by rw [h.session]
  provider h := by rw [h.session]
  subscriptions h := by rw [h.session]
  bound h := by rw [h.session]
  holds h hab := by rw [h.session, hab]
  binderSinks h hab := by rw [h.binderSinks, hab]
  providerSinks h := h.providerSinks
  lookups h := h.lookups
  handles h := h.handles
  tokens h := h.tokens
  requests h := h.requests
  handling h := h.handling
  closed h := iff_of_false h.open_second h.open_first
  unused _ := trivial
  remark h _ _ := { h with }
  act h a _ := { h with history := congrArg (a :: ·) h.history }
  release {u v} h := by
    have hs : Alike S { u with session := u.session.reset } { v with session := u.session.reset } :=
      { h with session := rfl }
    simp only [release, h.session]
    split
    · exact { hs with history := congrArg (_ :: ·) h.history }
    · exact hs
  change {_ _ f} h _ := { h with session := congrArg f h.session }
  append h _ he := { h with queue := he.eq ▸ h.queue.append [_] }
  withToken h := { h with tokens := congrArg (· + 1) h.tokens }
  withBinderSink h _ := { h with binderSinks := congrArg (· ++ [_]) h.binderSinks }
  withProviderSink h sink := { h with providerSinks := congrArg (· ++ [sink]) h.providerSinks }
  withRequests h _ := { h with requests := rfl }
  withLookups h _ := { h with lookups := rfl }
  withHandles h _ := { h with handles := rfl }
  withWaiting h := { h with open_first := by simp, open_second := by simp, handling := .rfl }

theorem answers (S : Event κ → Prop) (t : Transport) : (likeness S).Answers t t :=
  (likeness S).answers_refl (fun _ => rfl) t

/-- The two loops take the same event. -/
theorem awake (h : Alike S u v) (hh : u.handles ≠ 0) (hq : v.queue.head? = u.queue.head?) :
    Alike S (u.awake t) (v.awake t) := by
  have hv : v.handles ≠ 0 := h.handles ▸ hh
  cases hu : u.queue with
  | nil =>
    have hn : v.queue = [] := by simpa [hu] using hq
    rwa [awake_nil hh hu, awake_nil hv hn]
  | cons e rest =>
    obtain ⟨rest', hr⟩ : ∃ rest', v.queue = e :: rest' := by
      cases hw : v.queue with
      | nil => simp [hu, hw] at hq
      | cons e' rest' =>
        rw [hu, hw] at hq
        cases hq
        exact ⟨rest', rfl⟩
    rw [awake_cons hh hu, awake_cons hv hr]
    have hp : Padded S rest rest' := by
      have hq := h.queue
      rw [hu, hr] at hq
      exact hq.tail
    have hd : Alike S { u with loop := .handling, queue := rest }
        { v with loop := .handling, queue := rest' } :=
      { h with queue := hp, open_first := by simp, open_second := by simp, handling := .rfl }
    have hm := (likeness S).remark hd (.dispatching e) (.dispatching e)
    exact (likeness S).handle (answers S t) hm (.refl (fun _ => rfl) e)

theorem next? (h : Alike S u v) (hq : v.queue.head? = u.queue.head?) : v.next? = u.next? := by
  simp [World.next?, h.handles, h.handling, h.open_first, h.open_second, hq]

theorem turn (h : Alike S u v) (hg : ¬ u.Gone) (hn : v.next? = u.next?) :
    Alike S (u.turn t) (v.turn t) := by
  by_cases hl : u.loop = .handling
  · have hv := h.handling.mpr hl
    simpa only [World.turn, hl, hv] using h
  · have hv : v.loop ≠ .handling := fun hw => hl (h.handling.mp hw)
    have hh : u.handles ≠ 0 := fun h0 => hg ⟨h0, hl⟩
    have hq : v.queue.head? = u.queue.head? := by
      simpa [World.next?, h.handles, hh, hl, hv, h.open_first, h.open_second] using hn
    obtain ⟨r, hu⟩ := turn_eq (t := t) hl h.open_first
    obtain ⟨s, hv⟩ := turn_eq (t := t) hv h.open_second
    rw [hu, hv]
    exact awake { h with open_first := by simp, open_second := by simp, handling := .rfl } hh hq

/-- A step of both worlds. If it is a turn of the loop, both take the same event. -/
theorem step (h : Alike S u v) (hg : ¬ u.Gone) (s : Step κ)
    (hn : ∀ t, s = .turn t → v.next? = u.next?) : Alike S (u.step s) (v.step s) := by
  let L := likeness S
  have ht : ∀ t, L.Answers t t := answers S
  cases s with
  | connect t => exact L.call h (L.connect (ht t) h)
  | disconnect t => exact L.withHandle h (L.tearDown (ht t) h)
  | subscribe t node options callback =>
    exact L.call h (L.subscribe (ht t) h node options callback)
  | unsubscribe t node options => exact L.call h (L.unsubscribe (ht t) h node options)
  | getItem mediaId callback => exact L.call h (L.getItem h mediaId callback)
  | barrier => exact L.withHandle h (L.enqueue h .barrier (by simp))
  | cloneHandle => exact L.withHandle h (L.cloneHandle h)
  | dropHandle t => exact L.withHandle h (L.dropHandle (ht t) h)
  | post posting => exact L.post h (.refl (fun _ => rfl) posting)
  | turn t => exact h.turn hg (hn t rfl)
  | finish t => exact L.finish (ht t) h
  | answer result index => exact L.answer h result index

end Alike
end World
end MediaLink
