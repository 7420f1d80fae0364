import Mathlib.Logic.Function.Basic
import PixelForge.Shared.Requests

/-! # The three AWS stores, and how they answer

`Cloud` holds the S3 objects, the DynamoDB table and the SQS messages. `Cloud.perform` answers one
request under a `Choice` of the surroundings: the call succeeds, fails without effect, or takes
effect and fails all the same (a lost response). Every boto3 call is one atomic step; a condition
expression is evaluated in the step that writes.

A deleted message keeps its entry, marked `deleted`. A receipt handle is named by the message it
was issued for: a delete through any receipt of a message removes it.
-/
set_option autoImplicit false

namespace PixelForge

structure Object where
  body : Bytes
  contentType : String
deriving DecidableEq, Repr

/-- Where a message is: on the queue, parked on the dead-letter queue, or deleted. -/
inductive Place
  | onQueue
  | onDeadLetter
  | deleted
deriving DecidableEq, Repr

structure QueuedMessage where
  body : String
  attributes : List (String × String)
  place : Place
deriving DecidableEq, Repr

/-- `drawn` are the job ids `uuid4` has given out. -/
structure Cloud where
  objects : String → String → Option Object
  table : String → Option Item
  queue : String → Option QueuedMessage
  drawn : List String

namespace Cloud

def empty : Cloud := ⟨fun _ _ => none, fun _ => none, fun _ => none, []⟩

def setObject (s : Cloud) (bucket key : String) (o : Object) : Cloud :=
  { s with objects := Function.update s.objects bucket (Function.update (s.objects bucket) key o) }

def setItem (s : Cloud) (jobId : String) (it : Item) : Cloud :=
  { s with table := Function.update s.table jobId (some it) }

def setMessage (s : Cloud) (mid : String) (m : QueuedMessage) : Cloud :=
  { s with queue := Function.update s.queue mid (some m) }

@[simp] theorem setObject_table (s : Cloud) (b k : String) (o : Object) :
    (s.setObject b k o).table = s.table := rfl
@[simp] theorem setObject_queue (s : Cloud) (b k : String) (o : Object) :
    (s.setObject b k o).queue = s.queue := rfl
@[simp] theorem setItem_objects (s : Cloud) (j : String) (it : Item) :
    (s.setItem j it).objects = s.objects := rfl
@[simp] theorem setItem_queue (s : Cloud) (j : String) (it : Item) :
    (s.setItem j it).queue = s.queue := rfl
@[simp] theorem setMessage_objects (s : Cloud) (mid : String) (m : QueuedMessage) :
    (s.setMessage mid m).objects = s.objects := rfl
@[simp] theorem setMessage_table (s : Cloud) (mid : String) (m : QueuedMessage) :
    (s.setMessage mid m).table = s.table := rfl

theorem setObject_objects (s : Cloud) (b k b' k' : String) (o : Object) :
    (s.setObject b k o).objects b' k' = if b' = b ∧ k' = k then some o else s.objects b' k' := by
  unfold setObject
  by_cases hb : b' = b
  · subst hb
    by_cases hk : k' = k
    · subst hk; simp
    · simp [hk]
  · simp [hb]

theorem setItem_table (s : Cloud) (j j' : String) (it : Item) :
    (s.setItem j it).table j' = if j' = j then some it else s.table j' := by
  by_cases h : j' = j
  · subst h; simp [setItem]
  · simp [setItem, h]

theorem setMessage_queue (s : Cloud) (mid mid' : String) (m : QueuedMessage) :
    (s.setMessage mid m).queue mid' = if mid' = mid then some m else s.queue mid' := by
  by_cases h : mid' = mid
  · subst h; simp [setMessage]
  · simp [setMessage, h]

end Cloud

/-! ## One request -/

/-- What the surroundings do to a call: nothing, a failure without effect, or an effect whose
response is lost. -/
inductive Fault
  | none
  | failed (e : Exc)
  | lost (e : Exc)
deriving DecidableEq, Repr

/-- Whether a call that is faulted this way has its effect. -/
def Fault.takesEffect : Fault → Bool
  | .failed _ => false
  | _ => true

/-- The surroundings' part in one step: the fault, and the text, number or seed that the answer
draws on (a timestamp, an id, a reading of the clock, an attempt at rendering). -/
structure Choice where
  fault : Fault := .none
  text : String := ""
  number : Int := 0
  fraction : Rat := 0
  seed : Nat := 0
  traceId : Option String := none
  context : List (String × String) := []
deriving DecidableEq, Repr

/-- DynamoDB's answer to a false condition expression. -/
def conditionFailed : Exc :=
  .clientError Exc.conditionalCheckFailed 400 "The conditional request failed"

/-- The item an `UpdateItem` call stores. Without an item under the key it starts from the key
alone. -/
def Update.apply (u : Update) (jobId : String) (it : Option Item) : Except Exc Item :=
  match serializeDict u.set with
  | .error e => .error e
  | .ok sets =>
    if u.condition.all (·.holds it) then
      .ok ((it.getD [("job_id", .s jobId)]).update sets u.remove)
    else .error conditionFailed

/-- The form of `str(uuid.uuid4())`: hyphens after 8, 12, 16 and 20 lower-case hexadecimal digits,
36 characters in all. -/
def isUuid (s : String) : Bool :=
  s.toList.length == 36 && s.toList.zipIdx.all fun (c, i) =>
    if i == 8 || i == 13 || i == 18 || i == 23 then c == '-'
    else ('0' ≤ c && c ≤ '9') || ('a' ≤ c && c ≤ 'f')

/-- The partition key of an item. -/
def itemKey (it : Item) : Option String :=
  match it.get "job_id" with
  | some (.s j) => some j
  | _ => none

namespace Cloud

variable (ext : Externals)

/-- The answer without a fault, `none` when the choice offers an id that is taken. -/
def serve (s : Cloud) : (q : Request) → Choice → Option (q.Resp × Cloud)
  | .putObject b k body ct, _ => some (.ok (), s.setObject b k ⟨body, ct⟩)
  | .getObject b k, _ =>
    match s.objects b k with
    | some o => some (.ok o.body, s)
    | none => some (.error (.clientError "NoSuchKey" 404 "The specified key does not exist."), s)
  | .readBody body, _ => some (.ok body, s)
  | .headBucket _, _ => some (.ok (), s)
  | .putItem d, _ =>
    match serializeDict d with
    | .error e => some (.error e, s)
    | .ok it =>
      match itemKey it with
      | some j => some (.ok (), s.setItem j it)
      | none => some (.error (.clientError "ValidationException" 400 "Missing the key"), s)
  | .getItem j, _ => some (.ok (s.table j), s)
  | .updateItem j u, _ =>
    match u.apply j (s.table j) with
    | .error e => some (.error e, s)
    | .ok it => some (.ok (), s.setItem j it)
  | .sendMessage body attributes, ch =>
    if ch.text = "" ∨ (s.queue ch.text).isSome then none
    else some (.ok ch.text, s.setMessage ch.text ⟨body, attributes, .onQueue⟩)
  | .receiveMessage _ _, ch =>
    match s.queue ch.text with
    | some m =>
      if m.place = .onQueue then some (.ok [⟨some ch.text, some m.body⟩], s) else some (.ok [], s)
    | none => some (.ok [], s)
  | .deleteMessage r, _ =>
    match s.queue r with
    | some m => some (.ok (), s.setMessage r { m with place := .deleted })
    | none => some (.ok (), s)
  | .changeMessageVisibility _ _, _ => some (.ok (), s)
  | .getQueueAttributes, _ => some (.ok (), s)
  | .verifyImage data, ch => some (ext.verifyImage ch.seed data, s)
  | .openImage data, ch => some (ext.openImage ch.seed data, s)
  | .renderOne p size, ch => some (ext.renderOne ch.seed p size, s)
  | .mkdtemp, _ => some (.ok (), s)
  | .writeBytes _, _ => some (.ok (), s)
  | .readBytes data, _ => some (.ok data, s)
  | .rmtree, _ => some (.ok (), s)
  | .startHeartbeat _ _, _ => some (.ok (), s)
  | .stopHeartbeat, _ => some (.ok (), s)
  | .utcNow, ch => some (.ok ch.text, s)
  | .elapsedMs, ch => some (.ok ch.number, s)
  | .uuid4, ch =>
    if isUuid ch.text = false ∨ ch.text ∈ s.drawn then none
    else some (.ok ch.text, { s with drawn := ch.text :: s.drawn })
  | .uniform high, ch =>
    if min 0 high ≤ ch.fraction ∧ ch.fraction ≤ max 0 high then some (.ok ch.fraction, s) else none
  -- what `time.sleep` raises for a negative number is in `Shared/Ladder`
  | .sleep _, _ => some (.ok (), s)
  | .currentTraceId, ch => some (.ok ch.traceId, s)
  | .injectTraceContext, ch => some (.ok ch.context, s)
  | .bindJobContext _, _ => some (.ok (), s)
  | .clearJobContext, _ => some (.ok (), s)
  | .metric _, _ => some (.ok (), s)

/-- The answer to one request under a choice of the surroundings. -/
def perform (s : Cloud) (q : Request) (ch : Choice) : Option (q.Resp × Cloud) :=
  match ch.fault with
  | .none => s.serve ext q ch
  | .failed e => if q.canFail e then some (.error e, s) else none
  | .lost e => if q.canFail e then (s.serve ext q ch).map fun x => (.error e, x.2) else none

/-- The answers there are. -/
def Answers (q : Request) (r : q.Resp) : Prop :=
  ∃ (s : Cloud) (ch : Choice) (s' : Cloud), s.perform ext q ch = some (r, s')

/-! ## What one request can do -/

variable {ext} {s s' : Cloud} {ch : Choice}

theorem answers_of_perform (s : Cloud) (q : Request) (ch : Choice) (r : q.Resp) (s' : Cloud)
    (h : s.perform ext q ch = some (r, s')) : Answers ext q r := ⟨s, ch, s', h⟩

/-- A request is answered as `serve` answers it, or with a fault the request can have; the state
is then the one before, or the one `serve` leads to. -/
theorem perform_cases {q : Request} {r : q.Resp} (h : s.perform ext q ch = some (r, s')) :
    s.serve ext q ch = some (r, s') ∨
      ∃ e, r = .error e ∧ q.canFail e = true ∧
        (s' = s ∨ ∃ r', s.serve ext q ch = some (r', s')) := by
  unfold perform at h
  split at h
  · exact .inl h
  · split at h
    · rename_i hc
      obtain ⟨rfl, rfl⟩ := Prod.mk.inj (Option.some.inj h)
      exact .inr ⟨_, rfl, hc, .inl rfl⟩
    · cases h
  · split at h
    · rename_i hc
      obtain ⟨⟨r', t⟩, hs, ht⟩ := Option.map_eq_some_iff.mp h
      obtain ⟨rfl, rfl⟩ := Prod.mk.inj ht
      exact .inr ⟨_, rfl, hc, .inr ⟨r', hs⟩⟩
    · cases h

theorem perform_ok {q : Request} {v : q.Val} (h : s.perform ext q ch = some (.ok v, s')) :
    s.serve ext q ch = some (.ok v, s') := by
  obtain h | ⟨e, he, -⟩ := perform_cases h
  · exact h
  · cases he

/-- The writes of the program, one constructor for each kind of request that has an effect. -/
inductive Effect (s : Cloud) : Request → Cloud → Prop
  | object {b k : String} {body : Bytes} {ct : String} :
      Effect s (.putObject b k body ct) (s.setObject b k ⟨body, ct⟩)
  | put {d : PyDict} {it : Item} {j : String} (hd : serializeDict d = .ok it)
      (hj : itemKey it = some j) : Effect s (.putItem d) (s.setItem j it)
  | update {j : String} {u : Update} {it : Item} (hu : u.apply j (s.table j) = .ok it) :
      Effect s (.updateItem j u) (s.setItem j it)
  | send {body : String} {attributes : List (String × String)} {mid : String} (hne : mid ≠ "")
      (hm : s.queue mid = none) :
      Effect s (.sendMessage body attributes) (s.setMessage mid ⟨body, attributes, .onQueue⟩)
  | delete {mid : String} {m : QueuedMessage} (hm : s.queue mid = some m) :
      Effect s (.deleteMessage mid) (s.setMessage mid { m with place := .deleted })
  | draw {j : String} (hj : j ∉ s.drawn) (hu : isUuid j = true) :
      Effect s .uuid4 { s with drawn := j :: s.drawn }

theorem serve_effect {q : Request} {r : q.Resp} (h : s.serve ext q ch = some (r, s')) :
    s' = s ∨ Effect s q s' := by
  cases q with
  | putObject b k body ct =>
    obtain ⟨-, rfl⟩ := Prod.mk.inj (Option.some.inj h)
    exact .inr .object
  | getObject b k =>
    simp only [serve] at h
    split at h <;> exact .inl (Prod.mk.inj (Option.some.inj h)).2.symm
  | putItem d =>
    simp only [serve] at h
    split at h
    · exact .inl (Prod.mk.inj (Option.some.inj h)).2.symm
    · rename_i it hd
      split at h
      · rename_i j hj
        obtain ⟨-, rfl⟩ := Prod.mk.inj (Option.some.inj h)
        exact .inr (.put hd hj)
      · exact .inl (Prod.mk.inj (Option.some.inj h)).2.symm
  | updateItem j u =>
    simp only [serve] at h
    split at h
    · exact .inl (Prod.mk.inj (Option.some.inj h)).2.symm
    · rename_i it hu
      obtain ⟨-, rfl⟩ := Prod.mk.inj (Option.some.inj h)
      exact .inr (.update hu)
  | sendMessage body attributes =>
    simp only [serve] at h
    split at h
    · cases h
    · rename_i hm
      obtain ⟨-, rfl⟩ := Prod.mk.inj (Option.some.inj h)
      rw [not_or] at hm
      exact .inr (.send hm.1 (by simpa using hm.2))
  | deleteMessage mid =>
    simp only [serve] at h
    split at h
    · rename_i m hm
      obtain ⟨-, rfl⟩ := Prod.mk.inj (Option.some.inj h)
      exact .inr (.delete hm)
    · exact .inl (Prod.mk.inj (Option.some.inj h)).2.symm
  | uuid4 =>
    simp only [serve] at h
    split at h
    · cases h
    · rename_i hj
      obtain ⟨-, rfl⟩ := Prod.mk.inj (Option.some.inj h)
      rw [not_or] at hj
      exact .inr (.draw hj.2 (by simpa using hj.1))
  | uniform high =>
    simp only [serve] at h
    split at h
    · exact .inl (Prod.mk.inj (Option.some.inj h)).2.symm
    · cases h
  | receiveMessage n w =>
    simp only [serve] at h
    split at h
    · split at h <;> exact .inl (Prod.mk.inj (Option.some.inj h)).2.symm
    · exact .inl (Prod.mk.inj (Option.some.inj h)).2.symm
  | _ => exact .inl (Prod.mk.inj (Option.some.inj h)).2.symm

/-- **Everything a request can do to the stores.** -/
theorem perform_effect {q : Request} {r : q.Resp} (h : s.perform ext q ch = some (r, s')) :
    s' = s ∨ Effect s q s' := by
  obtain h | ⟨e, -, -, rfl | ⟨r', h⟩⟩ := perform_cases h
  · exact serve_effect h
  · exact .inl rfl
  · exact serve_effect h

theorem perform_updateItem {j : String} {u : Update} {r : Request.Resp (.updateItem j u)}
    (h : s.perform ext (.updateItem j u) ch = some (r, s')) :
    (s' = s ∧ (ch.fault.takesEffect = false ∨ ∃ e, u.apply j (s.table j) = .error e) ∧
      ∃ e, r = .error e ∧ (Request.canFail (.updateItem j u) e = true ∨
        u.apply j (s.table j) = .error e)) ∨
    ∃ it, ch.fault.takesEffect = true ∧ u.apply j (s.table j) = .ok it ∧ s' = s.setItem j it ∧
      ∀ e, r = .error e → Request.canFail (.updateItem j u) e = true := by
  unfold Cloud.perform at h
  cases hf : ch.fault with
  | none =>
    simp only [hf, Cloud.serve] at h
    split at h
    · rename_i e he
      obtain ⟨rfl, rfl⟩ := Prod.mk.inj (Option.some.inj h)
      exact .inl ⟨rfl, .inr ⟨e, he⟩, e, rfl, .inr he⟩
    · rename_i it hit
      obtain ⟨rfl, rfl⟩ := Prod.mk.inj (Option.some.inj h)
      exact .inr ⟨it, rfl, hit, rfl, fun e he => by cases he⟩
  | failed e =>
    simp only [hf] at h
    split at h
    · rename_i hc
      obtain ⟨rfl, rfl⟩ := Prod.mk.inj (Option.some.inj h)
      exact .inl ⟨rfl, .inl rfl, e, rfl, .inl hc⟩
    · cases h
  | lost e =>
    simp only [hf, Cloud.serve] at h
    split at h
    · rename_i hc
      obtain ⟨⟨r', t⟩, hs, ht⟩ := Option.map_eq_some_iff.mp h
      obtain ⟨rfl, rfl⟩ := Prod.mk.inj ht
      split at hs
      · rename_i e' he
        obtain ⟨-, rfl⟩ := Prod.mk.inj (Option.some.inj hs)
        exact .inl ⟨rfl, .inr ⟨e', he⟩, e, rfl, .inl hc⟩
      · rename_i it hit
        obtain ⟨-, rfl⟩ := Prod.mk.inj (Option.some.inj hs)
        exact .inr ⟨it, rfl, hit, rfl, fun e' he' => Except.error.inj he' ▸ hc⟩
    · cases h

end Cloud

end PixelForge
