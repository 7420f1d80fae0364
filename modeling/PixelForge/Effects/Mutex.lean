import PixelForge.Effects.Interleaving

/-! # Methods behind a lock

An object is a variable and a lock; each of its methods takes the lock, reads and writes the variable,
and gives the lock back. Processes call methods and ask requests of their own in between.

* `atomically`: the machine in which a method is one step.
* `interleaved`: the machine of the code, in which the accesses of one method come between those of
  others, as far as the lock lets them.
* `Serial.of_reach`: **methods are atomic**. Every run of `interleaved` is matched by a run of
  `atomically` in which the same processes have returned the same.
-/
set_option autoImplicit false

namespace PixelForge.Effects

section Objects

variable {V α β : Type}

inductive Access (V : Type)
  | read
  | write (v : V)

abbrev Access.Resp : Access V → Type
  | .read => V
  | .write _ => Unit

/-- The body of a method, run on its own. -/
def whole : Prog (Access V) Access.Resp β → V → β × V
  | .ret b, v => (b, v)
  | .call .read k, v => whole (k v) v
  | .call (.write w) k, _ => whole (k ()) w

/-- The methods of an object, with their bodies. -/
structure Methods (V : Type) where
  Name : Type
  Ans : Name → Type
  body : (m : Name) → Prog (Access V) Access.Resp (Ans m)

variable {O : Methods V} {Own : Type} {Back : Own → Type}

/-- What a process asks: a method of the object, or something of its own. -/
inductive Op (O : Methods V) (Own : Type)
  | method (m : O.Name)
  | own (q : Own)

abbrev Op.Resp (Back : Own → Type) : Op O Own → Type
  | .method m => O.Ans m
  | .own q => Back q

/-- What a process asks where methods are code. -/
inductive Micro (V Own : Type)
  | acquire
  | release
  | access (a : Access V)
  | own (q : Own)

abbrev Micro.Resp (Back : Own → Type) : Micro V Own → Type
  | .acquire => Unit
  | .release => Unit
  | .access a => a.Resp
  | .own q => Back q

/-- The rest of a method, and what comes after it. -/
def holding (p : Prog (Access V) Access.Resp β) (k : β → Prog (Micro V Own) (Micro.Resp Back) α) :
    Prog (Micro V Own) (Micro.Resp Back) α :=
  match p with
  | .ret b => .call .release fun _ => k b
  | .call a f => .call (.access a) fun r => holding (f r) k

/-- The code of a process. -/
def expand : Prog (Op O Own) (Op.Resp Back) α → Prog (Micro V Own) (Micro.Resp Back) α
  | .ret a => .ret a
  | .call (.method m) k => .call .acquire fun _ => holding (O.body m) fun r => expand (k r)
  | .call (.own q) k => .call (.own q) fun r => expand (k r)

/-- The variable and its lock. -/
structure Locked (V : Type) where
  held : Bool
  value : V

end Objects

section Machines

variable {V Own Proc Choice Move α : Type} {O : Methods V} {Back : Own → Type}

/-- What processes do with an object: who runs, and how requests that are not methods are answered. -/
structure Clients (O : Methods V) (Own : Type) (Back : Own → Type) (Proc Choice α : Type) where
  prog : Proc → Prog (Op O Own) (Op.Resp Back) α
  runs : Proc → Bool
  answer : (q : Own) → Choice → Option (Back q)

namespace Clients

variable (C : Clients O Own Back Proc Choice α)

def performOp (v : V) : (q : Op O Own) → Choice → Option (q.Resp Back × V)
  | .method m, _ => some (whole (O.body m) v)
  | .own q, ch => (C.answer q ch).map fun r => (r, v)

def atomically : Machine Proc (Op O Own) Choice Empty V α (Op.Resp Back) where
  prog := C.prog
  canStart _ i := C.runs i
  perform := C.performOp
  ambient _ m := nomatch m

def performMicro (s : Locked V) : (q : Micro V Own) → Choice → Option (q.Resp Back × Locked V)
  | .acquire, _ => if s.held then none else some ((), { s with held := true })
  | .release, _ => some ((), { s with held := false })
  | .access .read, _ => some (s.value, s)
  | .access (.write v), _ => some ((), { s with value := v })
  | .own q, ch => (C.answer q ch).map fun r => (r, s)

def interleaved : Machine Proc (Micro V Own) Choice Empty (Locked V) α (Micro.Resp Back) where
  prog i := expand (C.prog i)
  canStart _ i := C.runs i
  perform := C.performMicro
  ambient _ m := nomatch m

end Clients

/-! ## The simulation -/

/-- A thread that is not in a method. -/
inductive Matched : Thread (Micro V Own) (Micro.Resp Back) α → Thread (Op O Own) (Op.Resp Back) α → Prop
  | idle : Matched .idle .idle
  | crashed : Matched .crashed .crashed
  | running (p : Prog (Op O Own) (Op.Resp Back) α) : Matched (.running (expand p)) (.running p)

/-- A thread that has the lock: its method has come to `value` from `v`. -/
inductive Inside (v value : V) :
    Thread (Micro V Own) (Micro.Resp Back) α → Thread (Op O Own) (Op.Resp Back) α → Prop
  | crashed : Inside v value .crashed .crashed
  | running {m : O.Name} {p : Prog (Access V) Access.Resp (O.Ans m)}
      {k : O.Ans m → Prog (Op O Own) (Op.Resp Back) α} (hp : whole p value = whole (O.body m) v) :
      Inside v value (.running (holding p fun r => expand (k r))) (.running (.call (.method m) k))

abbrev Coarse (O : Methods V) (Own : Type) (Back : Own → Type) (Proc Choice α : Type) : Type :=
  Snapshot Proc (Op O Own) Choice V α (Op.Resp Back)

abbrev Fine (V Own : Type) (Back : Own → Type) (Proc Choice α : Type) : Type :=
  Snapshot Proc (Micro V Own) Choice (Locked V) α (Micro.Resp Back)

/-- The event of a request, where it is the process's own. -/
def Op.event : (q : Op O Own) → q.Resp Back → Option (Event Own Back)
  | .own q, r => some ⟨q, r⟩
  | .method _, _ => none

def Micro.event : (q : Micro V Own) → q.Resp Back → Option (Event Own Back)
  | .own q, r => some ⟨q, r⟩
  | _, _ => none

/-- What the processes have asked of their own, with who asked it, latest first. -/
def ownCoarse (log : List (Entry Proc (Op O Own) Choice V (Op.Resp Back))) : List (Proc × Event Own Back) :=
  log.filterMap fun e => (e.req.event e.resp).map fun v => (e.who, v)

def ownFine (log : List (Entry Proc (Micro V Own) Choice (Locked V) (Micro.Resp Back))) :
    List (Proc × Event Own Back) :=
  log.filterMap fun e => (e.req.event e.resp).map fun v => (e.who, v)

/-- Where the two runs are: nobody has the lock, or one process is in a method. -/
inductive Abreast (d : Fine V Own Back Proc Choice α) (c : Coarse O Own Back Proc Choice α) : Prop
  | free (hheld : d.state.held = false) (hvalue : d.state.value = c.state)
      (hall : ∀ i, Matched (d.thread i) (c.thread i)) : Abreast d c
  | taken {j : Proc} (hheld : d.state.held = true)
      (hothers : ∀ i, i ≠ j → Matched (d.thread i) (c.thread i))
      (hinside : Inside c.state d.state.value (d.thread j) (c.thread j)) : Abreast d c

/-- The coarse run `c` is where the fine run `d` is, up to the method that is being run, and the
processes have asked the same of their own, and all things in the same order. -/
structure Serial (d : Fine V Own Back Proc Choice α) (c : Coarse O Own Back Proc Choice α) : Prop where
  abreast : Abreast d c
  owns : ownFine d.log = ownCoarse c.log
  order : (c.log.map Entry.who).Sublist (d.log.map Entry.who)

theorem Matched.returned {t : Thread (Micro V Own) (Micro.Resp Back) α}
    {t' : Thread (Op O Own) (Op.Resp Back) α} (h : Matched t t') (a : α) :
    t' = .running (.ret a) ↔ t = .running (.ret a) := by
  cases h with
  | idle => exact iff_of_false nofun nofun
  | crashed => exact iff_of_false nofun nofun
  | running p =>
    cases p with
    | ret b => simp [expand]
    | call q k => cases q <;> simp [expand]

theorem Inside.not_returned {v value : V} {t : Thread (Micro V Own) (Micro.Resp Back) α}
    {t' : Thread (Op O Own) (Op.Resp Back) α} (h : Inside v value t t') (a : α) :
    t' ≠ .running (.ret a) ∧ t ≠ .running (.ret a) := by
  cases h with
  | crashed => exact ⟨nofun, nofun⟩
  | @running m p k hp => cases p <;> exact ⟨nofun, by simp [holding]⟩

/-- What has returned, has returned in both. -/
theorem Serial.result {d : Fine V Own Back Proc Choice α} {c : Coarse O Own Back Proc Choice α}
    (h : Serial d c) {i : Proc} {a : α} : c.result i = some a ↔ d.result i = some a := by
  rw [Snapshot.result_eq_some, Snapshot.result_eq_some]
  cases h.abreast with
  | free _ _ hall => exact (hall i).returned a
  | @taken j _ hothers hinside =>
    by_cases hij : i = j
    · subst hij
      exact iff_of_false (hinside.not_returned a).1 (hinside.not_returned a).2
    · exact (hothers i hij).returned a

section Steps

variable {C : Clients O Own Back Proc Choice α}
  {d d' : Fine V Own Back Proc Choice α} {c : Coarse O Own Back Proc Choice α} {i : Proc}

theorem related_update [DecidableEq Proc] {A B : Type} {R : A → B → Prop} {f : Proc → A} {g : Proc → B}
    {a : A} {b : B} {j : Proc} (hne : j ≠ i → R (f j) (g j)) (heq : j = i → R a b) :
    R (Function.update f i a j) (Function.update g i b j) := by
  by_cases hji : j = i
  · subst hji
    rw [Function.update_self, Function.update_self]
    exact heq rfl
  · rw [Function.update_of_ne hji, Function.update_of_ne hji]
    exact hne hji

/-- What a process in no method does: something of its own, or it takes the lock. -/
inductive Goes (C : Clients O Own Back Proc Choice α) (s : Locked V) (t : Thread (Op O Own) (Op.Resp Back) α) :
    Option (Event Own Back) → Prog (Micro V Own) (Micro.Resp Back) α → Locked V → Prop
  | own {q : Own} {ch : Choice} {r : Back q} {k : Back q → Prog (Op O Own) (Op.Resp Back) α}
      (ht : t = .running (.call (.own q) k)) (hr : C.answer q ch = some r) :
      Goes C s t (some ⟨q, r⟩) (expand (k r)) s
  | acquire {m : O.Name} {k : O.Ans m → Prog (Op O Own) (Op.Resp Back) α}
      (ht : t = .running (.call (.method m) k)) (hfree : s.held = false) :
      Goes C s t none (holding (O.body m) fun r => expand (k r)) { s with held := true }

theorem Matched.goes {t : Thread (Op O Own) (Op.Resp Back) α} {s s' : Locked V} {q : Micro V Own}
    {k : q.Resp Back → Prog (Micro V Own) (Micro.Resp Back) α} (hm : Matched (.running (.call q k)) t)
    {ch : Choice} {r : q.Resp Back} (hp : C.performMicro s q ch = some (r, s')) :
    Goes C s t (q.event r) (k r) s' := by
  generalize hcall : Thread.running (Prog.call q k) = t₀ at hm
  cases hm with
  | idle => cases hcall
  | crashed => cases hcall
  | running p =>
    cases p with
    | ret a => cases hcall
    | call o f =>
      cases o with
      | own q' =>
        cases hcall
        obtain ⟨r', hr, heq⟩ := Option.map_eq_some_iff.mp hp
        cases heq
        exact .own rfl hr
      | method m =>
        cases hcall
        simp only [Clients.performMicro] at hp
        split at hp
        · cases hp
        · rename_i hheld
          cases hp
          exact .acquire rfl (by simpa using hheld)

/-- What the process that has the lock does: it goes on in its method, or gives the lock back. -/
inductive Continues (v : V) (s : Locked V) (t : Thread (Op O Own) (Op.Resp Back) α) :
    Option (Event Own Back) → Prog (Micro V Own) (Micro.Resp Back) α → Locked V → Prop
  | inside {p : Prog (Micro V Own) (Micro.Resp Back) α} {value : V} (h : Inside v value (.running p) t) :
      Continues v s t none p { s with value := value }
  | release {m : O.Name} {b : O.Ans m} {k : O.Ans m → Prog (Op O Own) (Op.Resp Back) α}
      (ht : t = .running (.call (.method m) k)) (hb : whole (O.body m) v = (b, s.value)) :
      Continues v s t none (expand (k b)) { s with held := false }

theorem Inside.continues {v : V} {t : Thread (Op O Own) (Op.Resp Back) α} {s s' : Locked V}
    {q : Micro V Own} {k : q.Resp Back → Prog (Micro V Own) (Micro.Resp Back) α}
    (hin : Inside v s.value (.running (.call q k)) t) {ch : Choice} {r : q.Resp Back}
    (hp : C.performMicro s q ch = some (r, s')) : Continues v s t (q.event r) (k r) s' := by
  generalize hcall : Thread.running (Prog.call q k) = t₀ at hin
  cases hin with
  | crashed => cases hcall
  | @running m p f hwhole =>
    cases p with
    | ret b =>
      cases hcall
      cases hp
      exact .release rfl hwhole.symm
    | call a g =>
      cases a with
      | read =>
        cases hcall
        cases hp
        exact .inside (.running hwhole)
      | write w =>
        cases hcall
        cases hp
        exact .inside (.running hwhole)

theorem Matched.waits {t : Thread (Op O Own) (Op.Resp Back) α} {q : Micro V Own}
    {k : q.Resp Back → Prog (Micro V Own) (Micro.Resp Back) α} (hm : Matched (.running (.call q k)) t) :
    ∃ o f, t = .running (.call o f) := by
  generalize hcall : Thread.running (Prog.call q k) = t₀ at hm
  cases hm with
  | idle => cases hcall
  | crashed => cases hcall
  | running p =>
    cases p with
    | ret a => cases hcall
    | call o f => exact ⟨o, f, rfl⟩

theorem Inside.waits {v value : V} {t : Thread (Op O Own) (Op.Resp Back) α}
    {p : Prog (Micro V Own) (Micro.Resp Back) α} (hin : Inside v value (.running p) t) :
    ∃ o f, t = .running (.call o f) := by
  generalize hcall : Thread.running p = t₀ at hin
  cases hin with
  | crashed => cases hcall
  | running => exact ⟨_, _, rfl⟩

variable [DecidableEq Proc]

theorem Serial.crash (h : Serial d c) {q : Micro V Own}
    {k : q.Resp Back → Prog (Micro V Own) (Micro.Resp Back) α} (hi : d.thread i = .running (.call q k)) :
    ∃ c', C.atomically.step c (.crash i) = some c' ∧
      Serial { d with thread := Function.update d.thread i .crashed } c' := by
  have hstep : (∃ o f, c.thread i = .running (.call o f)) →
      C.atomically.step c (.crash i) = some { c with thread := Function.update c.thread i .crashed } := by
    rintro ⟨o, f, hc⟩
    simp only [Machine.step, hc]
  cases h.abreast with
  | free hheld hvalue hall =>
    exact ⟨_, hstep (hi ▸ hall i).waits, .free hheld hvalue fun j =>
      related_update (fun _ => hall j) fun _ => .crashed, h.owns, h.order⟩
  | @taken j hheld hothers hinside =>
    have hwaits : ∃ o f, c.thread i = .running (.call o f) := by
      by_cases hij : i = j
      · subst hij
        exact (hi ▸ hinside).waits
      · exact (hi ▸ hothers i hij).waits
    exact ⟨_, hstep hwaits, .taken hheld (fun k hk => related_update (fun _ => hothers k hk) fun _ => .crashed)
      (related_update (fun _ => hinside) fun _ => .crashed), h.owns, h.order⟩

/-- The coarse machine answers a request. -/
theorem reach_answered {o : Op O Own} {f : o.Resp Back → Prog (Op O Own) (Op.Resp Back) α} {ch : Choice}
    {r : o.Resp Back} {v : V} (hi : c.thread i = .running (.call o f))
    (hp : C.performOp c.state o ch = some (r, v)) : C.atomically.Reach Machine.always c
      ⟨v, Function.update c.thread i (.running (f r)), ⟨i, c.state, o, ch, r⟩ :: c.log⟩ := by
  have hperform : C.atomically.perform c.state o ch = some (r, v) := hp
  refine Machine.Reach.refl.next (l := .act i ch) ?_ fun _ _ => trivial
  simp only [Machine.step, hi, hperform, Option.map_some]

theorem reach_own {q : Own} {ch : Choice} {r : Back q} {f : Back q → Prog (Op O Own) (Op.Resp Back) α}
    (hi : c.thread i = .running (.call (.own q) f)) (hr : C.answer q ch = some r) :
    C.atomically.Reach Machine.always c
      ⟨c.state, Function.update c.thread i (.running (f r)), ⟨i, c.state, .own q, ch, r⟩ :: c.log⟩ := by
  refine reach_answered hi ?_
  simp only [Clients.performOp, hr, Option.map_some]

theorem reach_method (ch : Choice) {m : O.Name} {b : O.Ans m} {v : V}
    {f : O.Ans m → Prog (Op O Own) (Op.Resp Back) α} (hi : c.thread i = .running (.call (.method m) f))
    (hb : whole (O.body m) c.state = (b, v)) : C.atomically.Reach Machine.always c
      ⟨v, Function.update c.thread i (.running (f b)), ⟨i, c.state, .method m, ch, b⟩ :: c.log⟩ :=
  reach_answered hi (congrArg some hb)

theorem matched_stays {j : Proc} (hj : Matched (d.thread j) (c.thread j)) (hne : j ≠ i)
    (t : Thread (Micro V Own) (Micro.Resp Back) α) : Matched (Function.update d.thread i t j) (c.thread j) := by
  rwa [Function.update_of_ne hne]

/-- A request is answered: the method that it belongs to goes on, or one step is made in both. -/
theorem Serial.act (h : Serial d c) {q : Micro V Own}
    {k : q.Resp Back → Prog (Micro V Own) (Micro.Resp Back) α} {ch : Choice} {r : q.Resp Back}
    {s' : Locked V} (hi : d.thread i = .running (.call q k))
    (hp : C.performMicro d.state q ch = some (r, s')) :
    ∃ c', C.atomically.Reach Machine.always c c' ∧
      Serial ⟨s', Function.update d.thread i (.running (k r)), ⟨i, d.state, q, ch, r⟩ :: d.log⟩ c' := by
  have hsilent : q.event r = none → ownFine (⟨i, d.state, q, ch, r⟩ :: d.log) = ownCoarse c.log := by
    intro hev
    rw [← h.owns]
    exact List.filterMap_cons_none (by rw [hev]; rfl)
  have hown : ∀ {q' : Own} {r' : Back q'}, q.event r = some ⟨q', r'⟩ →
      ownFine (⟨i, d.state, q, ch, r⟩ :: d.log) = (i, ⟨q', r'⟩) :: ownCoarse c.log := by
    intro q' r' hev
    rw [← h.owns]
    exact List.filterMap_cons_some (by rw [hev]; rfl)
  generalize hkr : k r = p
  generalize hev : q.event r = ev at hsilent hown
  cases h.abreast with
  | free hheld hvalue hall =>
    obtain ⟨ht, hr⟩ | ⟨ht, hfree⟩ := hev ▸ hkr ▸ (hi ▸ hall i).goes hp
    · exact ⟨_, reach_own ht hr, .free hheld hvalue fun j =>
        related_update (fun _ => hall j) fun _ => .running _, hown rfl, h.order.cons_cons i⟩
    · refine ⟨c, .refl, .taken (j := i) rfl (fun j hne => matched_stays (hall j) hne _) ?_, hsilent rfl,
        h.order.cons i⟩
      show Inside c.state d.state.value (Function.update d.thread i _ i) (c.thread i)
      rw [Function.update_self, ht]
      exact .running (by rw [hvalue])
  | @taken j hheld hothers hinside =>
    by_cases hij : i = j
    · subst hij
      obtain hin | ⟨ht, hb⟩ := hev ▸ hkr ▸ (hi ▸ hinside).continues hp
      · refine ⟨c, .refl, .taken (j := i) hheld (fun j hne => matched_stays (hothers j hne) hne _) ?_,
          hsilent rfl, h.order.cons i⟩
        show Inside c.state _ (Function.update d.thread i _ i) (c.thread i)
        rw [Function.update_self]
        exact hin
      · exact ⟨_, reach_method ch ht hb, .free rfl rfl fun j =>
          related_update (fun hne => hothers j hne) fun _ => .running _, hsilent rfl, h.order.cons_cons i⟩
    · -- the lock is taken: what is not the holder's is a process's own
      obtain ⟨ht, hr⟩ | ⟨ht, hfree⟩ := hev ▸ hkr ▸ (hi ▸ hothers i hij).goes hp
      · exact ⟨_, reach_own ht hr,
          .taken hheld (fun k hk => related_update (fun _ => hothers k hk) fun _ => .running _)
            (related_update (fun _ => hinside) fun hji => absurd hji.symm hij), hown rfl,
          h.order.cons_cons i⟩
      · rw [hheld] at hfree
        cases hfree

theorem Matched.of_idle {t : Thread (Op O Own) (Op.Resp Back) α}
    (hm : Matched (.idle : Thread (Micro V Own) (Micro.Resp Back) α) t) : t = .idle := by
  cases hm
  rfl

theorem Serial.start (h : Serial d c) (hidle : d.thread i = .idle) (hruns : C.runs i = true) :
    ∃ c', C.atomically.step c (.start i) = some c' ∧
      Serial { d with thread := Function.update d.thread i (.running (expand (C.prog i))) } c' := by
  have hstep : c.thread i = .idle → C.atomically.step c (.start i) =
      some { c with thread := Function.update c.thread i (.running (C.prog i)) } := by
    intro hc
    have hcan : C.atomically.canStart c.state i = true := hruns
    simp only [Machine.step, hc, hcan, if_true]
    rfl
  cases h.abreast with
  | free hheld hvalue hall =>
    exact ⟨_, hstep (hidle ▸ hall i).of_idle, .free hheld hvalue fun j =>
      related_update (fun _ => hall j) fun _ => .running _, h.owns, h.order⟩
  | @taken j hheld hothers hinside =>
    have hij : i ≠ j := by
      rintro rfl
      rw [hidle] at hinside
      cases hinside
    exact ⟨_, hstep (hidle ▸ hothers i hij).of_idle,
      .taken hheld (fun k hk => related_update (fun _ => hothers k hk) fun _ => .running _)
        (related_update (fun _ => hinside) fun hji => absurd hji.symm hij), h.owns, h.order⟩

theorem Serial.step (h : Serial d c) {l : Label Proc Choice Empty} (hs : C.interleaved.step d l = some d') :
    ∃ c', C.atomically.Reach Machine.always c c' ∧ Serial d' c' := by
  obtain ⟨i, -, hidle, hruns, rfl⟩ | ⟨i, ch, q, k, r, s', -, hi, hp, rfl⟩ | ⟨i, q, k, -, hi, rfl⟩ |
    ⟨m, -⟩ := Machine.step_cases hs
  · obtain ⟨c', hc', hserial⟩ := h.start hidle hruns
    exact ⟨c', Machine.Reach.refl.next hc' fun _ _ => trivial, hserial⟩
  · exact h.act hi hp
  · obtain ⟨c', hc', hserial⟩ := h.crash hi
    exact ⟨c', Machine.Reach.refl.next hc' fun _ _ => trivial, hserial⟩
  · exact nomatch m

/-- **Methods are atomic**: every run of the code is matched by one in which each method is one step. -/
theorem Serial.of_reach {G : Machine.Guard Proc (Micro V Own) Choice (Locked V) (Micro.Resp Back)} {v : V}
    (h : C.interleaved.Reach G (Machine.initial ⟨false, v⟩) d) :
    ∃ c, C.atomically.Reach Machine.always (Machine.initial v) c ∧ Serial d c := by
  induction h with
  | refl => exact ⟨_, .refl, .free rfl rfl fun _ => .idle, rfl, .slnil⟩
  | next _ hs _ ih =>
    obtain ⟨c, hc, hserial⟩ := ih
    obtain ⟨c', hc', hserial'⟩ := hserial.step hs
    exact ⟨c', hc.trans hc', hserial'⟩

end Steps

end Machines

end PixelForge.Effects
