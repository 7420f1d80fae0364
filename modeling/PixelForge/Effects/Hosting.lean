import PixelForge.Effects.Exceptions
import PixelForge.Effects.Interleaving

/-! # Programs that run other programs

The processes of one machine may run the programs of another inside their own: a server its
handlers, a loop its iterations. Both machines answer from the same state.

* `Lodging Host M`: the host that each process of `M` runs in, and what a host may ask besides.
* `Lodging.Hosts L h Q gs p s`: from the state `s`, and after the guests `gs` with their results, the
  host `h` runs `p` as requests of its own and one guest after another; where `p` returns, `Q` holds.
* `Hosting L H`: every program of `H` is run this way.
* `Hosting.shadowed`: **what the hosts do, the guests do**. Every run of `H` is a run of `M` through
  the same states, and the log of `M` is the part of the log of `H` that its guests asked for.
-/
set_option autoImplicit false

namespace PixelForge.Effects

variable {Host Proc Req Choice Move σ α β γ δ : Type} {Resp : Req → Type}

@[simp] theorem bind_bind (p : Prog Req Resp α) (f : α → Prog Req Resp β)
    (g : β → Prog Req Resp γ) : (p.bind f).bind g = p.bind fun a => (f a).bind g := by
  induction p with
  | ret a => rfl
  | call q k ih =>
    rw [Prog.call_bind, Prog.call_bind, Prog.call_bind]
    exact congrArg (Prog.call q) (funext ih)

section Lodging

/-- Where the processes of `M` run: `owner i` is the host of `i` with the number of its guests before
`i`. What a host asks of itself leaves the state alone. -/
structure Lodging (Host : Type) (M : Machine Proc Req Choice Move σ α Resp) where
  owner : Proc → Host × Nat
  own : Host → Req → Prop
  quiet : ∀ {h : Host} {q : Req} {s s' : σ} {ch : Choice} {r : Resp q}, own h q →
    M.perform s q ch = some (r, s') → s' = s

variable {M : Machine Proc Req Choice Move σ α Resp}

namespace Lodging

variable (L : Lodging Host M)

/-- How a host runs a program: `done`, one request of its own, or the whole of a guest that may start
now. A guest that `M` runs with a wrapped result is run without the wrapping. -/
inductive Hosts (h : Host) (Q : List (Proc × α) → γ → σ → Prop) :
    List (Proc × α) → Prog Req Resp γ → σ → Prop
  | done {gs : List (Proc × α)} {a : γ} {s : σ} (hQ : Q gs a s) : Hosts h Q gs (.ret a) s
  | alone {gs : List (Proc × α)} {q : Req} {k : Resp q → Prog Req Resp γ} {s : σ} (hown : L.own h q)
      (hk : ∀ ch r t, M.perform t q ch = some (r, t) → Hosts h Q gs (k r) t) :
      Hosts h Q gs (.call q k) s
  | enter {gs : List (Proc × α)} {i : Proc} {δ : Type} {g : Prog Req Resp δ} {w : δ → α}
      {k : δ → Prog Req Resp γ} {s : σ} (howner : L.owner i = (h, gs.length))
      (hprog : M.prog i = g.bind fun r => .ret (w r)) (hstart : M.canStart s i = true)
      (hk : ∀ r t, Hosts h Q (gs ++ [(i, w r)]) (k r) t) : Hosts h Q gs (g.bind k) s

variable {L} {h : Host} {Q : List (Proc × α) → γ → σ → Prop} {gs : List (Proc × α)} {s : σ}

theorem Hosts.bind {R : List (Proc × α) → δ → σ → Prop} {p : Prog Req Resp δ}
    {f : δ → Prog Req Resp γ} (hp : L.Hosts h R gs p s)
    (hf : ∀ gs a t, R gs a t → L.Hosts h Q gs (f a) t) : L.Hosts h Q gs (p.bind f) s := by
  induction hp with
  | done hQ => exact hf _ _ _ hQ
  | alone hown _ ih => exact .alone hown ih
  | enter howner hprog hstart _ ih =>
    rw [bind_bind]
    exact .enter howner hprog hstart ih

/-- What a host sees of the state when it asks for itself: others move it in between. -/
def visits (L : Lodging Host M) (h : Host) : Interface Req Resp σ where
  may := fun _ q => L.own h q
  exec := fun _ q r t => ∃ ch, M.perform t q ch = some (r, t)

/-- A program that only asks what is the host's own. -/
theorem Hosts.of_wp {p : Prog Req Resp γ} (hp : Prog.wp (L.visits h) p (Q gs) s) :
    L.Hosts h Q gs p s := by
  induction p generalizing s with
  | ret a => exact .done hp
  | call q k ih => exact .alone hp.1 fun ch r t ht => ih r (hp.2 r t ⟨ch, ht⟩)

/-- A guest and nothing else. -/
theorem Hosts.guest {i : Proc} {g : Prog Req Resp γ} {w : γ → α}
    (howner : L.owner i = (h, gs.length)) (hprog : M.prog i = g.bind fun r => .ret (w r))
    (hstart : M.canStart s i = true) (hQ : ∀ r t, Q (gs ++ [(i, w r)]) r t) :
    L.Hosts h Q gs g s := by
  have hret : g = g.bind .ret := by
    clear hprog
    induction g with
    | ret a => rfl
    | call q k ih =>
      rw [Prog.call_bind]
      exact congrArg (Prog.call q) (funext ih)
  rw [hret]
  exact .enter howner hprog hstart fun r t => .done (hQ r t)

theorem Hosts.tryElse {ε : Type} {a b : Type} {R : List (Proc × α) → Except ε a → σ → Prop}
    {Q : List (Proc × α) → Except ε b → σ → Prop} {m : Fallible Req Resp ε a}
    {c : ε → Fallible Req Resp ε b} {k : a → Fallible Req Resp ε b} (hm : L.Hosts h R gs m s)
    (hc : ∀ gs e t, R gs (.error e) t → L.Hosts h Q gs (c e) t)
    (hk : ∀ gs v t, R gs (.ok v) t → L.Hosts h Q gs (k v) t) :
    L.Hosts h Q gs (Fallible.tryElse m c k) s := by
  refine hm.bind fun gs r t hr => ?_
  cases r with
  | ok v => exact hk gs v t hr
  | error e => exact hc gs e t hr

end Lodging

/-! ## Hosts and guests at the same time -/

variable (L : Lodging Host M)

/-- The guests of a host, where it has left those of `gs` and is in `cur`, if in any. -/
structure Past (h : Host) (gs : List (Proc × α)) (cur : Option Proc)
    (c : Snapshot Proc Req Choice σ α Resp) : Prop where
  ended : ∀ x ∈ gs, c.thread x.1 = .running (.ret x.2)
  owned : ∀ x ∈ gs, ∃ n < gs.length, L.owner x.1 = (h, n)
  rest : ∀ i, (L.owner i).1 = h → (∀ a, (i, a) ∉ gs) → cur ≠ some i → c.thread i = .idle

/-- Where a running host is: it has returned, it asks for itself, or its last guest asks. -/
inductive Mode (post : Host → List (Proc × α) → β → Prop) (h : Host)
    (c : Snapshot Proc Req Choice σ α Resp) : Prog Req Resp β → Prop
  | returned {gs : List (Proc × α)} {b : β} (hpast : Past L h gs none c) (hb : post h gs b) :
      Mode post h c (.ret b)
  | alone {gs : List (Proc × α)} {q : Req} {k : Resp q → Prog Req Resp β}
      (hpast : Past L h gs none c) (hown : L.own h q)
      (hk : ∀ ch r t, M.perform t q ch = some (r, t) →
        L.Hosts h (fun gs b _ => post h gs b) gs (k r) t) : Mode post h c (.call q k)
  | inside {gs : List (Proc × α)} {i : Proc} {δ : Type} {q : Req} {g : Resp q → Prog Req Resp δ}
      {w : δ → α} {k : δ → Prog Req Resp β} (hpast : Past L h gs (some i) c)
      (howner : L.owner i = (h, gs.length))
      (hi : c.thread i = .running (.call q fun r => (g r).bind fun a => .ret (w a)))
      (hk : ∀ a t, L.Hosts h (fun gs b _ => post h gs b) (gs ++ [(i, w a)]) (k a) t) :
      Mode post h c (.call q fun r => (g r).bind k)

variable {L} {post : Host → List (Proc × α) → β → Prop} {h : Host} {gs : List (Proc × α)}
  {cur : Option Proc} {c c' : Snapshot Proc Req Choice σ α Resp} {p : Prog Req Resp β}

theorem Past.congr (hp : Past L h gs cur c)
    (hsame : ∀ i, (L.owner i).1 = h → c'.thread i = c.thread i) : Past L h gs cur c' where
  ended x hx := by
    obtain ⟨n, -, hn⟩ := hp.owned x hx
    rw [hsame x.1 (by rw [hn])]
    exact hp.ended x hx
  owned := hp.owned
  rest i hi hgs hcur := (hsame i hi).trans (hp.rest i hi hgs hcur)

theorem Mode.congr (hm : Mode L post h c p)
    (hsame : ∀ i, (L.owner i).1 = h → c'.thread i = c.thread i) : Mode L post h c' p := by
  cases hm with
  | returned hpast hb => exact .returned (hpast.congr hsame) hb
  | alone hpast hown hk => exact .alone (hpast.congr hsame) hown hk
  | inside hpast howner hi hk =>
    exact .inside (hpast.congr hsame) howner ((hsame _ (by rw [howner])).trans hi) hk

/-- The guest that is about to start has not started. -/
theorem Past.idle (hp : Past L h gs none c) {i : Proc} (hi : L.owner i = (h, gs.length)) :
    c.thread i = .idle := by
  refine hp.rest i (by rw [hi]) (fun a ha => ?_) (by simp)
  obtain ⟨n, hn, howner⟩ := hp.owned _ ha
  rw [hi] at howner
  exact absurd (Prod.mk.inj howner).2 (Nat.ne_of_gt hn)

theorem Past.ne_of_mem (hp : Past L h gs cur c) {i : Proc} (hi : L.owner i = (h, gs.length))
    {x : Proc × α} (hx : x ∈ gs) : x.1 ≠ i := by
  obtain ⟨n, hn, howner⟩ := hp.owned x hx
  rintro rfl
  rw [hi] at howner
  exact absurd (Prod.mk.inj howner).2 (Nat.ne_of_gt hn)

/-- The host goes into its next guest. -/
theorem Past.enter (hp : Past L h gs none c) {i : Proc} (hi : L.owner i = (h, gs.length))
    (hother : ∀ j, j ≠ i → c'.thread j = c.thread j) : Past L h gs (some i) c' where
  ended x hx := (hother _ (hp.ne_of_mem hi hx)).trans (hp.ended x hx)
  owned := hp.owned
  rest j hj hgs hcur :=
    (hother j fun hji => hcur (congrArg some hji.symm)).trans (hp.rest j hj hgs (by simp))

/-- The guest the host is in goes on. -/
theorem Past.stay {i : Proc} (hp : Past L h gs (some i) c) (hi : L.owner i = (h, gs.length))
    (hother : ∀ j, j ≠ i → c'.thread j = c.thread j) : Past L h gs (some i) c' where
  ended x hx := (hother _ (hp.ne_of_mem hi hx)).trans (hp.ended x hx)
  owned := hp.owned
  rest j hj hgs hcur :=
    (hother j fun hji => hcur (congrArg some hji.symm)).trans (hp.rest j hj hgs hcur)

/-- The guests that the host is not in do not wait for an answer. -/
theorem Past.waits (hp : Past L h gs cur c) {i : Proc} (hi : (L.owner i).1 = h) (hcur : cur ≠ some i) :
    c.waits i = false := by
  unfold Snapshot.waits
  by_cases hgs : ∃ a, (i, a) ∈ gs
  · obtain ⟨a, ha⟩ := hgs
    rw [hp.ended _ ha]
  · rw [hp.rest i hi (fun a ha => hgs ⟨a, ha⟩) hcur]

/-- The guest the host is in returns. -/
theorem Past.leave {i : Proc} {a : α} (hp : Past L h gs (some i) c)
    (hi : L.owner i = (h, gs.length)) (hret : c'.thread i = .running (.ret a))
    (hother : ∀ j, j ≠ i → c'.thread j = c.thread j) : Past L h (gs ++ [(i, a)]) none c' where
  ended x hx := by
    obtain hx | hx := List.mem_append.mp hx
    · exact (hother _ (hp.ne_of_mem hi hx)).trans (hp.ended x hx)
    · obtain rfl := List.mem_singleton.mp hx
      exact hret
  owned x hx := by
    rw [List.length_append, List.length_singleton]
    obtain hx | hx := List.mem_append.mp hx
    · obtain ⟨n, hn, howner⟩ := hp.owned x hx
      exact ⟨n, Nat.lt_succ_of_lt hn, howner⟩
    · obtain rfl := List.mem_singleton.mp hx
      exact ⟨_, Nat.lt_succ_self _, hi⟩
  rest j hj hgs _ := by
    have hji : j ≠ i := by
      rintro rfl
      exact hgs a (List.mem_append_right _ List.mem_cons_self)
    rw [hother j hji]
    exact hp.rest j hj (fun b hb => hgs b (List.mem_append_left _ hb))
      fun h => hji (Option.some.inj h).symm

/-! ## The simulation -/

section Shadows

variable (L)

/-- The log of the guests is the part of the log of the hosts that they asked for. -/
inductive Shadows : List (Entry Host Req Choice σ Resp) → List (Entry Proc Req Choice σ Resp) → Prop
  | nil : Shadows [] []
  | alone {l : List (Entry Host Req Choice σ Resp)} {l' : List (Entry Proc Req Choice σ Resp)}
      {e : Entry Host Req Choice σ Resp} (hl : Shadows l l') (hown : L.own e.who e.req) :
      Shadows (e :: l) l'
  | guest {l : List (Entry Host Req Choice σ Resp)} {l' : List (Entry Proc Req Choice σ Resp)}
      {e : Entry Proc Req Choice σ Resp} (hl : Shadows l l') :
      Shadows (⟨(L.owner e.who).1, e.before, e.req, e.choice, e.resp⟩ :: l) (e :: l')

variable {L} in
theorem Shadows.of_mem {l : List (Entry Host Req Choice σ Resp)} {l' : List (Entry Proc Req Choice σ Resp)}
    (h : Shadows L l l') {e : Entry Host Req Choice σ Resp} (he : e ∈ l) :
    L.own e.who e.req ∨
      ∃ e' ∈ l', e = ⟨(L.owner e'.who).1, e'.before, e'.req, e'.choice, e'.resp⟩ := by
  induction h with
  | nil => cases he
  | alone _ hown ih =>
    obtain rfl | he := List.mem_cons.mp he
    · exact .inl hown
    · exact ih he
  | guest _ ih =>
    obtain rfl | he := List.mem_cons.mp he
    · exact .inr ⟨_, List.mem_cons_self, rfl⟩
    · exact (ih he).imp id fun ⟨e', hmem, heq⟩ => ⟨e', List.mem_cons_of_mem _ hmem, heq⟩

/-- `c` is what the guests do in `d`. -/
structure Shadowed (post : Host → List (Proc × α) → β → Prop)
    (d : Snapshot Host Req Choice σ β Resp) (c : Snapshot Proc Req Choice σ α Resp) : Prop where
  state : c.state = d.state
  log : Shadows L d.log c.log
  idle : ∀ h, d.thread h = .idle → ∀ i, (L.owner i).1 = h → c.thread i = .idle
  running : ∀ h p, d.thread h = .running p → Mode L post h c p
  crashed : ∀ h, d.thread h = .crashed → ∀ i, (L.owner i).1 = h → c.waits i = false

/-- Every program of `H` is run by its host. -/
structure Hosting (H : Machine Host Req Choice Move σ β Resp) where
  post : Host → List (Proc × α) → β → Prop
  perform : H.perform = M.perform
  ambient : H.ambient = M.ambient
  hosts : ∀ h s, H.canStart s h = true → L.Hosts h (fun gs b _ => post h gs b) [] (H.prog h) s

variable {L}

section Settle

variable [DecidableEq Proc]

/-- A host that may run `p` starts the guests that come before its next request. -/
theorem Lodging.Hosts.settle {s : σ} (hp : L.Hosts h (fun gs b _ => post h gs b) gs p s) :
    ∀ c : Snapshot Proc Req Choice σ α Resp, c.state = s → Past L h gs none c →
      ∃ c', M.Reach Machine.always c c' ∧ c'.state = s ∧ c'.log = c.log ∧
        (∀ i, (L.owner i).1 ≠ h → c'.thread i = c.thread i) ∧ Mode L post h c' p := by
  induction hp with
  | done hQ => exact fun c hc hpast => ⟨c, .refl, hc, rfl, fun _ _ => rfl, .returned hpast hQ⟩
  | alone hown hk => exact fun c hc hpast => ⟨c, .refl, hc, rfl, fun _ _ => rfl, .alone hpast hown hk⟩
  | @enter gs i δ g w k s howner hprog hstart hk ih =>
    intro c hc hpast
    obtain ⟨c₁, hc₁⟩ : ∃ c₁ : Snapshot Proc Req Choice σ α Resp,
      c₁ = { c with thread := Function.update c.thread i (.running (M.prog i)) } := ⟨_, rfl⟩
    have hstep : M.step c (.start i) = some c₁ := by
      simp only [Machine.step, hpast.idle howner, hc, hstart, if_true, hc₁]
    have hreach : M.Reach Machine.always c c₁ := Machine.Reach.refl.next hstep fun _ _ => trivial
    have hi : c₁.thread i = .running (M.prog i) := by
      rw [hc₁]
      exact Function.update_self ..
    have hother : ∀ j, j ≠ i → c₁.thread j = c.thread j := fun j hj => by
      rw [hc₁]
      exact Function.update_of_ne hj ..
    have hhost : ∀ j, (L.owner j).1 ≠ h → c₁.thread j = c.thread j := fun j hj =>
      hother j fun hji => hj (by rw [hji, howner])
    have hin := hpast.enter howner hother
    cases g with
    | ret a =>
      rw [hprog] at hi
      obtain ⟨c', hreach', hstate, hlog, hrest, hmode⟩ :=
        ih a s c₁ (by rw [hc₁]; exact hc) (hin.leave howner hi fun _ _ => rfl)
      exact ⟨c', hreach.trans hreach', hstate, by rw [hlog, hc₁],
        fun j hj => (hrest j hj).trans (hhost j hj), hmode⟩
    | call q g =>
      rw [hprog] at hi
      exact ⟨c₁, hreach, by rw [hc₁]; exact hc, by rw [hc₁], hhost, .inside hin howner hi hk⟩

end Settle

variable [DecidableEq Host] {d d' : Snapshot Host Req Choice σ β Resp}

/-- One host has moved on, or crashed, and the others have not noticed. -/
theorem Shadowed.moved (hs : Shadowed L post d c) (hstate : c'.state = d'.state)
    (hlog : Shadows L d'.log c'.log) (hhosts : ∀ h', h' ≠ h → d'.thread h' = d.thread h')
    (hother : ∀ i, (L.owner i).1 ≠ h → c'.thread i = c.thread i)
    (hnow : (∃ p, d'.thread h = .running p ∧ Mode L post h c' p) ∨
      d'.thread h = .crashed ∧ ∀ i, (L.owner i).1 = h → c'.waits i = false) :
    Shadowed L post d' c' where
  state := hstate
  log := hlog
  idle h' hh' i hi := by
    by_cases heq : h' = h
    · subst heq
      obtain ⟨p, hp, -⟩ | ⟨hp, -⟩ := hnow <;> rw [hh'] at hp <;> cases hp
    · exact (hother i (hi ▸ heq)).trans (hs.idle h' (hhosts h' heq ▸ hh') i hi)
  running h' p hh' := by
    by_cases heq : h' = h
    · subst heq
      obtain ⟨p', hp, hm⟩ | ⟨hp, -⟩ := hnow <;> rw [hh'] at hp <;> cases hp
      exact hm
    · exact (hs.running h' p (hhosts h' heq ▸ hh')).congr fun i hi => hother i (hi ▸ heq)
  crashed h' hh' i hi := by
    by_cases heq : h' = h
    · subst heq
      obtain ⟨p', hp, -⟩ | ⟨-, hwaits⟩ := hnow
      · rw [hh'] at hp
        cases hp
      · exact hwaits i hi
    · rw [Snapshot.waits, hother i (hi ▸ heq)]
      exact hs.crashed h' (hhosts h' heq ▸ hh') i hi

variable [DecidableEq Proc]

/-- The host goes on with a program it may run. -/
theorem Shadowed.resumed (hs : Shadowed L post d c) {c₁ : Snapshot Proc Req Choice σ α Resp}
    (hstate : c₁.state = d'.state) (hlog : Shadows L d'.log c₁.log)
    (hhosts : ∀ h', h' ≠ h → d'.thread h' = d.thread h')
    (hother : ∀ i, (L.owner i).1 ≠ h → c₁.thread i = c.thread i)
    (hrun : d'.thread h = .running p) (hpast : Past L h gs none c₁)
    (hp : L.Hosts h (fun gs b _ => post h gs b) gs p d'.state) :
    ∃ c', M.Reach Machine.always c₁ c' ∧ Shadowed L post d' c' := by
  obtain ⟨c', hreach, hstate', hlog', hrest, hmode⟩ := hp.settle c₁ hstate hpast
  exact ⟨c', hreach, hs.moved hstate' (hlog' ▸ hlog) hhosts
    (fun i hi => (hrest i hi).trans (hother i hi)) (.inl ⟨p, hrun, hmode⟩)⟩

theorem thread_update {t : Thread Req Resp β} {h : Host} (h' : Host) (hne : h' ≠ h) :
    Function.update d.thread h t h' = d.thread h' := Function.update_of_ne hne ..

/-- The guest that a host is in has its request answered. -/
theorem Shadowed.answered (hs : Shadowed L post d c) {i : Proc} {q : Req} {g : Resp q → Prog Req Resp δ}
    {w : δ → α} {k : δ → Prog Req Resp β} {ch : Choice} {r : Resp q} {s' : σ}
    (hpast : Past L h gs (some i) c) (howner : L.owner i = (h, gs.length))
    (hi : c.thread i = .running (.call q fun r => (g r).bind fun a => .ret (w a)))
    (hk : ∀ a t, L.Hosts h (fun gs b _ => post h gs b) (gs ++ [(i, w a)]) (k a) t)
    (hperform : M.perform c.state q ch = some (r, s')) :
    ∃ c', M.Reach Machine.always c c' ∧ Shadowed L post ⟨s', Function.update d.thread h
      (.running ((g r).bind k)), ⟨h, d.state, q, ch, r⟩ :: d.log⟩ c' := by
  obtain ⟨c₁, hc₁⟩ : ∃ c₁ : Snapshot Proc Req Choice σ α Resp, c₁ = ⟨s', Function.update c.thread i
    (.running ((g r).bind fun a => .ret (w a))), ⟨i, c.state, q, ch, r⟩ :: c.log⟩ := ⟨_, rfl⟩
  have hact : M.step c (.act i ch) = some c₁ := by
    simp only [Machine.step, hi, hperform, Option.map_some, hc₁]
  have hreach : M.Reach Machine.always c c₁ := Machine.Reach.refl.next hact fun _ _ => trivial
  have hi₁ : c₁.thread i = .running ((g r).bind fun a => .ret (w a)) := by
    rw [hc₁]
    exact Function.update_self ..
  have hother : ∀ j, j ≠ i → c₁.thread j = c.thread j := fun j hj => by
    rw [hc₁]
    exact Function.update_of_ne hj ..
  have hhost : ∀ j, (L.owner j).1 ≠ h → c₁.thread j = c.thread j := fun j hj =>
    hother j fun hji => hj (by rw [hji, howner])
  have hlog : Shadows L (⟨h, d.state, q, ch, r⟩ :: d.log) c₁.log := by
    have hguest := Shadows.guest (L := L) (e := ⟨i, c.state, q, ch, r⟩) hs.log
    rw [howner, hs.state] at hguest
    rw [hc₁, hs.state]
    exact hguest
  cases hg : g r with
  | ret a =>
    rw [hg] at hi₁
    have hresumed : ∃ c', M.Reach Machine.always c₁ c' ∧
        Shadowed L post ⟨s', Function.update d.thread h (.running (k a)),
          ⟨h, d.state, q, ch, r⟩ :: d.log⟩ c' :=
      hs.resumed (by rw [hc₁]) hlog thread_update hhost (Function.update_self ..)
        (hpast.leave howner hi₁ hother) (hk a s')
    obtain ⟨c', hreach', hshadowed⟩ := hresumed
    exact ⟨c', hreach.trans hreach', hshadowed⟩
  | call q' g' =>
    rw [hg] at hi₁
    exact ⟨c₁, hreach, hs.moved (by rw [hc₁]) hlog thread_update hhost
      (.inl ⟨_, Function.update_self .., .inside (hpast.stay howner hother) howner hi₁ hk⟩)⟩

/-- A host crashes, and the guest that it is in. -/
theorem Shadowed.fallen (hs : Shadowed L post d c) (hm : Mode L post h c p) :
    ∃ c', M.Reach Machine.always c c' ∧
      Shadowed L post { d with thread := Function.update d.thread h .crashed } c' := by
  have hown : ∀ {gs : List (Proc × α)}, Past L h gs none c → Shadowed L post
      { d with thread := Function.update d.thread h .crashed } c := fun hpast =>
    hs.moved hs.state hs.log thread_update (fun _ _ => rfl)
      (.inr ⟨Function.update_self .., fun i hi => hpast.waits hi (by simp)⟩)
  cases hm with
  | returned hpast hb => exact ⟨c, .refl, hown hpast⟩
  | alone hpast _ hk => exact ⟨c, .refl, hown hpast⟩
  | @inside gs i δ q g w k hpast howner hi hk =>
    obtain ⟨c₁, hc₁⟩ : ∃ c₁ : Snapshot Proc Req Choice σ α Resp,
      c₁ = { c with thread := Function.update c.thread i .crashed } := ⟨_, rfl⟩
    have hcrash : M.step c (.crash i) = some c₁ := by
      simp only [Machine.step, hi, hc₁]
    have hi₁ : c₁.thread i = .crashed := by
      rw [hc₁]
      exact Function.update_self ..
    have hother : ∀ j, j ≠ i → c₁.thread j = c.thread j := fun j hj => by
      rw [hc₁]
      exact Function.update_of_ne hj ..
    refine ⟨c₁, Machine.Reach.refl.next hcrash fun _ _ => trivial, hs.moved (by rw [hc₁]; exact hs.state)
      (by rw [hc₁]; exact hs.log) thread_update (fun j hj => hother j fun hji => hj (by rw [hji, howner]))
      (.inr ⟨Function.update_self .., fun j hj => ?_⟩)⟩
    by_cases hji : j = i
    · rw [hji, Snapshot.waits, hi₁]
    · rw [Snapshot.waits, hother j hji]
      exact hpast.waits hj fun h => hji (Option.some.inj h).symm

omit [DecidableEq Host] in
/-- The surroundings move. -/
theorem Shadowed.surrounded (hs : Shadowed L post d c) {m : Move} {s' : σ}
    (hm : M.ambient c.state m = some s') :
    ∃ c', M.Reach Machine.always c c' ∧ Shadowed L post { d with state := s' } c' := by
  have hamb : M.step c (.ambient m) = some { c with state := s' } := by
    simp only [Machine.step, hm, Option.map_some]
  refine ⟨_, Machine.Reach.refl.next hamb fun _ _ => trivial, ⟨rfl, hs.log, hs.idle, ?_, hs.crashed⟩⟩
  exact fun h p hh => (hs.running h p hh).congr fun _ _ => rfl

variable {H : Machine Host Req Choice Move σ β Resp}

/-- **A step of a host is matched by steps of its guests.** -/
theorem Hosting.step (hosting : Hosting L H) (hs : Shadowed L hosting.post d c)
    {l : Label Host Choice Move} (hstep : H.step d l = some d') :
    ∃ c', M.Reach Machine.always c c' ∧ Shadowed L hosting.post d' c' := by
  obtain ⟨h, rfl, hidle, hstart, rfl⟩ | ⟨h, ch, q, k, r, s', rfl, hrun, hperform, rfl⟩ |
    ⟨h, q, k, rfl, hrun, rfl⟩ | ⟨m, s', rfl, hm, rfl⟩ := Machine.step_cases hstep
  · have hpast : Past L h [] none c := ⟨fun x hx => absurd hx List.not_mem_nil,
      fun x hx => absurd hx List.not_mem_nil, fun i hi _ _ => hs.idle h hidle i hi⟩
    exact hs.resumed hs.state hs.log thread_update (fun _ _ => rfl) (Function.update_self ..) hpast
      (hosting.hosts h d.state hstart)
  · rw [hosting.perform] at hperform
    cases hs.running h _ hrun with
    | alone hpast hown hk =>
      have hquiet := L.quiet hown hperform
      exact hs.resumed (hs.state.trans hquiet.symm) (.alone hs.log hown) thread_update
        (fun _ _ => rfl) (Function.update_self ..) hpast (hk ch r s' (hquiet ▸ hperform))
    | inside hpast howner hi hk => exact hs.answered hpast howner hi hk (hs.state ▸ hperform)
  · exact hs.fallen (hs.running h _ hrun)
  · rw [hosting.ambient] at hm
    exact hs.surrounded (hs.state ▸ hm)

/-- **What the hosts do, the guests do**: every run of the hosts is a run of the guests. -/
theorem Hosting.runs (hosting : Hosting L H) {G : Machine.Guard Host Req Choice σ Resp}
    (hs : Shadowed L hosting.post d c) (hreach : H.Reach G d d') :
    ∃ c', M.Reach Machine.always c c' ∧ Shadowed L hosting.post d' c' := by
  induction hreach with
  | refl => exact ⟨c, .refl, hs⟩
  | next _ hstep _ ih =>
    obtain ⟨c₁, hreach₁, hs₁⟩ := ih
    obtain ⟨c₂, hreach₂, hs₂⟩ := hosting.step hs₁ hstep
    exact ⟨c₂, hreach₁.trans hreach₂, hs₂⟩

omit [DecidableEq Host] [DecidableEq Proc] in
theorem Hosting.initial (hosting : Hosting L H) (s : σ) :
    Shadowed L hosting.post (Machine.initial s) (Machine.initial s) where
  state := rfl
  log := .nil
  idle _ _ _ _ := rfl
  running _ _ hh := by cases hh
  crashed _ hh := by cases hh

theorem Hosting.shadowed (hosting : Hosting L H) {G : Machine.Guard Host Req Choice σ Resp} {s : σ}
    (hreach : H.Reach G (Machine.initial s) d) :
    ∃ c, M.Reach Machine.always (Machine.initial s) c ∧ Shadowed L hosting.post d c :=
  hosting.runs (hosting.initial s) hreach

end Shadows

end Lodging

end PixelForge.Effects
