import PixelForge.Effects.Replay
import PixelForge.Shared.Cloud

/-! # The stores as cells

What a request reads and what it may change, cell by cell: `Cloud.cells` is the instance of
`Effects.Cells` for the stores.
-/
set_option autoImplicit false

namespace PixelForge
open Effects

inductive Cell
  | item (j : String)
  | object (b k : String)
  | message (mid : String)
  | drawn

namespace Cell

def Val : Cell → Type
  | item _ => Option Item
  | object _ _ => Option Object
  | message _ => Option QueuedMessage
  | drawn => List String

def look (s : Cloud) : (i : Cell) → i.Val
  | item j => s.table j
  | object b k => s.objects b k
  | message mid => s.queue mid
  | drawn => s.drawn

/-- What the answer to a request depends on. -/
def reads : Request → Set Cell
  | .getObject b k => {object b k}
  | .getItem j => {item j}
  | .updateItem j _ => {item j}
  | .sendMessage _ _ => Set.range message
  | .receiveMessage _ _ => Set.range message
  | .uuid4 => {drawn}
  | _ => ∅

/-- What a request may change. -/
def writes : Request → Set Cell
  | .putObject b k _ _ => {object b k}
  | .putItem _ => Set.range item
  | .updateItem j _ => {item j}
  | .sendMessage _ _ => Set.range message
  | .deleteMessage r => {message r}
  | .uuid4 => {drawn}
  | _ => ∅

theorem determined {s t : Cloud} (h : ∀ i, look s i = look t i) : s = t := by
  obtain ⟨objects, table, queue, ids⟩ := s
  obtain ⟨objects', table', queue', ids'⟩ := t
  have hobjects : objects = objects' := funext fun b => funext fun k => h (.object b k)
  have htable : table = table' := funext fun j => h (.item j)
  have hqueue : queue = queue' := funext fun mid => h (.message mid)
  have hids : ids = ids' := h .drawn
  rw [hobjects, htable, hqueue, hids]

theorem look_setObject (s : Cloud) (b k : String) (o : Object) :
    look (s.setObject b k o) (object b k) = some o :=
  (Cloud.setObject_objects ..).trans (if_pos ⟨rfl, rfl⟩)

theorem look_setItem_self (s : Cloud) (j : String) (it : Item) :
    look (s.setItem j it) (item j) = some it := (Cloud.setItem_table ..).trans (if_pos rfl)

theorem look_setItem_congr {s t : Cloud} {j j' : String} {it : Item}
    (h : look s (item j') = look t (item j')) :
    look (s.setItem j it) (item j') = look (t.setItem j it) (item j') := by
  have hs : look (s.setItem j it) (item j') = _ := s.setItem_table j j' it
  have ht : look (t.setItem j it) (item j') = _ := t.setItem_table j j' it
  have h' : s.table j' = t.table j' := h
  rw [hs, ht, h']

theorem look_setMessage_congr {s t : Cloud} {mid mid' : String} {m : QueuedMessage}
    (h : look s (message mid') = look t (message mid')) :
    look (s.setMessage mid m) (message mid') = look (t.setMessage mid m) (message mid') := by
  have hs : look (s.setMessage mid m) (message mid') = _ := s.setMessage_queue mid mid' m
  have ht : look (t.setMessage mid m) (message mid') = _ := t.setMessage_queue mid mid' m
  have h' : s.queue mid' = t.queue mid' := h
  rw [hs, ht, h']

section Requests

variable {ext : Externals} {s s' t : Cloud} {q : Request} {ch : Choice} {r : q.Resp}

theorem frame (h : s.perform ext q ch = some (r, s')) : ∀ i ∉ writes q, look s' i = look s i := by
  obtain rfl | he := Cloud.perform_effect h
  · exact fun _ _ => rfl
  intro i hi
  cases he with
  | @object b k =>
    cases i with
    | object b' k' =>
      have hne : ¬(b' = b ∧ k' = k) := by
        rintro ⟨rfl, rfl⟩
        exact hi rfl
      exact (Cloud.setObject_objects ..).trans (if_neg hne)
    | _ => rfl
  | put hd hj =>
    cases i with
    | item j => exact absurd ⟨j, rfl⟩ hi
    | _ => rfl
  | @update j =>
    cases i with
    | item j' =>
      have hne : ¬j' = j := by
        rintro rfl
        exact hi rfl
      exact (Cloud.setItem_table ..).trans (if_neg hne)
    | _ => rfl
  | send hne hm =>
    cases i with
    | message mid => exact absurd ⟨mid, rfl⟩ hi
    | _ => rfl
  | @delete mid =>
    cases i with
    | message mid' =>
      have hne : ¬mid' = mid := by
        rintro rfl
        exact hi rfl
      exact (Cloud.setMessage_queue ..).trans (if_neg hne)
    | _ => rfl
  | draw hj hu =>
    cases i with
    | drawn => exact absurd rfl hi
    | _ => rfl

theorem serve_depends (hread : ∀ i ∈ reads q, look s i = look t i)
    (h : s.serve ext q ch = some (r, s')) :
    ∃ t', t.serve ext q ch = some (r, t') ∧
      ∀ i ∈ writes q, look s i = look t i → look s' i = look t' i := by
  cases q with
  | putObject b k body ct =>
    obtain ⟨rfl, rfl⟩ := Prod.mk.inj (Option.some.inj h)
    refine ⟨_, rfl, ?_⟩
    rintro i rfl -
    exact (look_setObject ..).trans (look_setObject ..).symm
  | getObject b k =>
    have hobj : s.objects b k = t.objects b k := hread (.object b k) rfl
    simp only [Cloud.serve] at h ⊢
    rw [← hobj]
    split at h <;> obtain ⟨rfl, rfl⟩ := Prod.mk.inj (Option.some.inj h) <;>
      exact ⟨t, rfl, fun _ hi => hi.elim⟩
  | putItem d =>
    simp only [Cloud.serve] at h ⊢
    split at h
    · obtain ⟨rfl, rfl⟩ := Prod.mk.inj (Option.some.inj h)
      exact ⟨t, rfl, fun _ _ hi => hi⟩
    · split at h
      · obtain ⟨rfl, rfl⟩ := Prod.mk.inj (Option.some.inj h)
        refine ⟨_, rfl, ?_⟩
        rintro i ⟨j', rfl⟩ hi
        exact look_setItem_congr hi
      · obtain ⟨rfl, rfl⟩ := Prod.mk.inj (Option.some.inj h)
        exact ⟨t, rfl, fun _ _ hi => hi⟩
  | getItem j =>
    have hitem : s.table j = t.table j := hread (.item j) rfl
    obtain ⟨rfl, rfl⟩ := Prod.mk.inj (Option.some.inj h)
    exact ⟨t, by simp only [Cloud.serve, hitem], fun _ hi => hi.elim⟩
  | updateItem j u =>
    have hitem : s.table j = t.table j := hread (.item j) rfl
    simp only [Cloud.serve] at h ⊢
    rw [← hitem]
    split at h
    · obtain ⟨rfl, rfl⟩ := Prod.mk.inj (Option.some.inj h)
      exact ⟨t, rfl, fun _ _ hi => hi⟩
    · obtain ⟨rfl, rfl⟩ := Prod.mk.inj (Option.some.inj h)
      refine ⟨_, rfl, ?_⟩
      rintro i rfl -
      exact (look_setItem_self ..).trans (look_setItem_self ..).symm
  | sendMessage body attributes =>
    have hqueue : s.queue = t.queue := funext fun mid => hread (.message mid) ⟨mid, rfl⟩
    simp only [Cloud.serve] at h ⊢
    rw [← hqueue]
    split at h
    · cases h
    · rename_i hnew
      obtain ⟨rfl, rfl⟩ := Prod.mk.inj (Option.some.inj h)
      refine ⟨_, if_neg hnew, ?_⟩
      rintro i ⟨mid, rfl⟩ hi
      exact look_setMessage_congr hi
  | receiveMessage n wait =>
    have hqueue : s.queue = t.queue := funext fun mid => hread (.message mid) ⟨mid, rfl⟩
    simp only [Cloud.serve] at h ⊢
    rw [← hqueue]
    split at h
    · split at h <;> rename_i hplace <;> obtain ⟨rfl, rfl⟩ := Prod.mk.inj (Option.some.inj h)
      · exact ⟨t, if_pos hplace, fun _ hi => hi.elim⟩
      · exact ⟨t, if_neg hplace, fun _ hi => hi.elim⟩
    · obtain ⟨rfl, rfl⟩ := Prod.mk.inj (Option.some.inj h)
      exact ⟨t, rfl, fun _ hi => hi.elim⟩
  | deleteMessage mid =>
    have hs : ∀ u : Cloud, ∃ u', u.serve ext (.deleteMessage mid) ch = some (.ok (), u') ∧
        look u' (.message mid) = (u.queue mid).map fun m => { m with place := .deleted } := by
      intro u
      simp only [Cloud.serve]
      cases hm : u.queue mid with
      | none => exact ⟨u, rfl, hm⟩
      | some m => exact ⟨_, rfl, (Cloud.setMessage_queue ..).trans (if_pos rfl)⟩
    obtain ⟨s₁, hs₁, hlook⟩ := hs s
    obtain ⟨t₁, ht₁, hlook'⟩ := hs t
    obtain ⟨rfl, rfl⟩ := Prod.mk.inj (Option.some.inj (h.symm.trans hs₁))
    refine ⟨t₁, ht₁, ?_⟩
    rintro i rfl hi
    have hqueue : s.queue mid = t.queue mid := hi
    rw [hlook, hlook', hqueue]
  | uuid4 =>
    have hdrawn : s.drawn = t.drawn := hread .drawn rfl
    simp only [Cloud.serve] at h ⊢
    rw [← hdrawn]
    split at h
    · cases h
    · rename_i hnew
      obtain ⟨rfl, rfl⟩ := Prod.mk.inj (Option.some.inj h)
      refine ⟨_, if_neg hnew, ?_⟩
      rintro i rfl -
      rfl
  | uniform high =>
    simp only [Cloud.serve] at h ⊢
    split at h
    · rename_i hrange
      obtain ⟨rfl, rfl⟩ := Prod.mk.inj (Option.some.inj h)
      exact ⟨t, if_pos hrange, fun _ hi => hi.elim⟩
    · cases h
  | _ =>
    obtain ⟨rfl, rfl⟩ := Prod.mk.inj (Option.some.inj h)
    exact ⟨t, rfl, fun _ hi => hi.elim⟩

theorem depends (hread : ∀ i ∈ reads q, look s i = look t i)
    (h : s.perform ext q ch = some (r, s')) :
    ∃ t', t.perform ext q ch = some (r, t') ∧
      ∀ i ∈ writes q, look s i = look t i → look s' i = look t' i := by
  unfold Cloud.perform at h ⊢
  split at h
  · exact serve_depends hread h
  · split at h
    · rename_i hfail
      obtain ⟨rfl, rfl⟩ := Prod.mk.inj (Option.some.inj h)
      exact ⟨t, if_pos hfail, fun _ _ hi => hi⟩
    · cases h
  · split at h
    · rename_i hfail
      obtain ⟨⟨r', u⟩, hs, hu⟩ := Option.map_eq_some_iff.mp h
      obtain ⟨rfl, rfl⟩ := Prod.mk.inj hu
      obtain ⟨t', ht, hcells⟩ := serve_depends hread hs
      refine ⟨t', ?_, hcells⟩
      rw [if_pos hfail, ht]
      rfl
    · cases h

end Requests

end Cell

/-- The stores, cell by cell. -/
def Cloud.cells (ext : Externals) :
    Cells Request Choice Cloud Cell Request.Resp (Cloud.perform ext) where
  Val := Cell.Val
  look := Cell.look
  reads := Cell.reads
  writes := Cell.writes
  determined := Cell.determined
  frame := Cell.frame
  depends := Cell.depends

end PixelForge
