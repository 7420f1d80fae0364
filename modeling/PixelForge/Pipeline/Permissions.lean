import PixelForge.Formats.Policies
import PixelForge.Pipeline.Clients

/-! # The policies of the roles

The policies that `terraform/platform/iam.tf` attaches to the roles of the API and of the worker, and
what each AWS call needs on the bucket, the queue and the table that its process is configured for.

`never_denied`: where the configurations name what the stack has created, no call of a deployment is
denied by the policy of its role.
`written_by_role`: whatever runs under the two roles, an object is written by the role of its folder.
-/
set_option autoImplicit false

namespace PixelForge
open Effects Policies

/-- The ARNs of the bucket, of the queue and of the table that the stack creates. -/
structure Arns where
  media : String
  jobsQueue : String
  jobsTable : String

inductive Role
  | api
  | worker
deriving DecidableEq, Repr

/-- The objects of the bucket under a folder. -/
def Arns.under (arns : Arns) (folder : String) : String := arns.media ++ "/" ++ folder ++ "/*"

def Arns.policy (arns : Arns) : Role → Policy
  | .api =>
    [⟨["s3:putObject"], [arns.under "uploads"]⟩,
     ⟨["sqs:SendMessage"], [arns.jobsQueue]⟩,
     ⟨["dynamoDB:putItem", "dynamoDB:getItem"], [arns.jobsTable]⟩,
     ⟨["s3:ListBucket", "sqs:GetQueueAttributes"], [arns.media, arns.jobsQueue]⟩]
  | .worker =>
    [⟨["s3:putObject"], [arns.under "outputs"]⟩,
     ⟨["s3:GetObject"], [arns.under "uploads"]⟩,
     ⟨["sqs:ReceiveMessage", "sqs:DeleteMessage", "sqs:ChangeMessageVisibility",
       "sqs:GetQueueAttributes"], [arns.jobsQueue]⟩,
     ⟨["dynamodb:UpdateItem", "dynamodb:GetItem"], [arns.jobsTable]⟩,
     ⟨["dynamoDB:UpdateItem", "dynamoDB:GetItem"], [arns.jobsTable]⟩,
     ⟨["s3:ListBucket"], [arns.media]⟩]

def bucketArn (bucket : String) : String := "arn:aws:s3:::" ++ bucket
def objectArn (bucket key : String) : String := bucketArn bucket ++ "/" ++ key

/-- The queue and the table, by their ARNs, that the clients of a process address. -/
structure Addressed where
  queue : String
  table : String

/-- How AWS names a queue by its URL, and a table by its region and name. -/
structure Naming where
  queueArn : String → String
  tableArn : String → String → String

def Naming.addressed (naming : Naming) (config : Config) : Addressed where
  queue := naming.queueArn config.sqsQueueUrl
  table := naming.tableArn config.awsRegion config.dynamodbTable

/-- The configuration names the bucket, the queue and the table of the stack. -/
structure Naming.Provisioned (naming : Naming) (arns : Arns) (config : Config) : Prop where
  media : arns.media = bucketArn config.s3Bucket
  jobsQueue : arns.jobsQueue = naming.queueArn config.sqsQueueUrl
  jobsTable : arns.jobsTable = naming.tableArn config.awsRegion config.dynamodbTable

/-- The action and the resource that a call is authorised on. -/
def Request.needs (target : Addressed) : Request → Option (String × String)
  | .putObject bucket key _ _ => some ("s3:PutObject", objectArn bucket key)
  | .getObject bucket key => some ("s3:GetObject", objectArn bucket key)
  | .headBucket bucket => some ("s3:ListBucket", bucketArn bucket)
  | .putItem _ => some ("dynamodb:PutItem", target.table)
  | .getItem _ => some ("dynamodb:GetItem", target.table)
  | .updateItem _ _ => some ("dynamodb:UpdateItem", target.table)
  | .sendMessage _ _ => some ("sqs:SendMessage", target.queue)
  | .receiveMessage _ _ => some ("sqs:ReceiveMessage", target.queue)
  | .deleteMessage _ => some ("sqs:DeleteMessage", target.queue)
  | .changeMessageVisibility _ _ => some ("sqs:ChangeMessageVisibility", target.queue)
  | .getQueueAttributes => some ("sqs:GetQueueAttributes", target.queue)
  | _ => none

/-- Whether the role may make the call, where it is one to AWS. -/
def Arns.admits (arns : Arns) (target : Addressed) (role : Role) (q : Request) : Bool :=
  match q.needs target with
  | none => true
  | some (action, resource) => Policy.allows (arns.policy role) action resource

/-- The role that a task runs under. -/
def Task.role : Task → Role
  | .work _ _ => .worker
  | _ => .api

/-- The configuration that a task runs with. -/
def Task.config (config : Config) : Task → Config
  | .work own _ => own
  | _ => config

/-- The folder that a role writes in. -/
def Role.folder : Role → String
  | .api => "uploads"
  | .worker => "outputs"

/-! ## What the roles may do -/

section Admitted

variable {arns : Arns} {target : Addressed} {bucket key : String} {role : Role}

theorem toList_under (folder : String) :
    (arns.under folder).toList = arns.media.toList ++ '/' :: (folder.toList ++ ['/', '*']) := by
  simp [Arns.under]

theorem toList_objectArn (hmedia : arns.media = bucketArn bucket) :
    (objectArn bucket key).toList = arns.media.toList ++ '/' :: key.toList := by
  simp [objectArn, hmedia]

theorem fits_under (hmedia : arns.media = bucketArn bucket) {folder : String} (rest : List Char)
    (hkey : key.toList = folder.toList ++ '/' :: rest) :
    isGlob (arns.under folder).toList (objectArn bucket key).toList = true := by
  rw [toList_under, toList_objectArn hmedia, hkey]
  refine isGlob_append _ ?_
  have happend := isGlob_append ('/' :: (folder.toList ++ ['/'])) (isGlob_everything rest)
  simpa using happend

/-- A text without wildcards. -/
def Literal (s : String) : Prop := (s.toList.all fun c => c != '*' && c != '?') = true

theorem literal_iff {s : String} : Literal s ↔ ∀ c ∈ s.toList, c ≠ '*' ∧ c ≠ '?' := by
  simp [Literal]

theorem of_fits_under (hmedia : arns.media = bucketArn bucket) (hbucket : Literal bucket)
    {folder : String} (hfolder : Literal folder)
    (h : isGlob (arns.under folder).toList (objectArn bucket key).toList = true) :
    ∃ rest, key.toList = folder.toList ++ '/' :: rest := by
  have hliteral : ∀ c ∈ arns.media.toList ++ '/' :: (folder.toList ++ ['/']), c ≠ '*' ∧ c ≠ '?' := by
    intro c hc
    simp only [hmedia, bucketArn, String.toList_append, List.mem_append, List.mem_cons, List.not_mem_nil,
      or_false] at hc
    obtain (hc | hc) | rfl | hc | rfl := hc
    · exact literal_iff.mp (by unfold Literal; decide : Literal "arn:aws:s3:::") c hc
    · exact literal_iff.mp hbucket c hc
    · decide
    · exact literal_iff.mp hfolder c hc
    · decide
  have hsplit : (arns.under folder).toList =
      (arns.media.toList ++ '/' :: (folder.toList ++ ['/'])) ++ ['*'] := by
    rw [toList_under]
    simp
  rw [hsplit, isGlob_literal hliteral, toList_objectArn hmedia] at h
  obtain ⟨rest, heq, -⟩ := h
  refine ⟨rest, ?_⟩
  rw [List.append_assoc] at heq
  have hrest := (List.cons.inj (List.append_cancel_left heq)).2
  rw [hrest]
  simp

theorem admits_putObject {body : Bytes} {ct : String} :
    arns.admits target role (.putObject bucket key body ct) = true ↔
      isGlob (arns.under role.folder).toList (objectArn bucket key).toList = true := by
  cases role <;> simp +decide [Arns.admits, Request.needs, Arns.policy, Policy.allows, Statement.allows, Role.folder]

theorem admits_getObject :
    arns.admits target role (.getObject bucket key) = true ↔ role = .worker ∧
      isGlob (arns.under "uploads").toList (objectArn bucket key).toList = true := by
  cases role <;> simp +decide [Arns.admits, Request.needs, Arns.policy, Policy.allows, Statement.allows]

theorem admits_uploads (hmedia : arns.media = bucketArn bucket) (j x : String) {body : Bytes}
    {ct : String} : arns.admits target .api (.putObject bucket (JobService.inputKey j x) body ct) = true := by
  refine admits_putObject.mpr (fits_under hmedia (j.toList ++ "/original".toList ++ x.toList) ?_)
  simp [JobService.inputKey, Role.folder]

theorem admits_original (hmedia : arns.media = bucketArn bucket) (j x : String) :
    arns.admits target .worker (.getObject bucket (JobService.inputKey j x)) = true := by
  refine admits_getObject.mpr ⟨rfl, fits_under hmedia (j.toList ++ "/original".toList ++ x.toList) ?_⟩
  simp [JobService.inputKey]

theorem admits_outputs (hmedia : arns.media = bucketArn bucket) (j : String) (size : Nat)
    {body : Bytes} {ct : String} :
    arns.admits target .worker (.putObject bucket (outputKey j size) body ct) = true := by
  refine admits_putObject.mpr (fits_under hmedia
    (j.toList ++ "/thumb_".toList ++ (toString size).toList ++ ".jpg".toList) ?_)
  simp [outputKey, Role.folder]

/-- A call that a statement of the policy names, on one of its resources as a whole. -/
theorem admits_named {q : Request} {statement : Statement} {name action resource : String} (i j k : Nat)
    (hneeds : q.needs target = some (action, resource)) (hs : (arns.policy role)[i]? = some statement)
    (hn : statement.actions[j]? = some name) (hr : statement.resources[k]? = some resource)
    (hcase : lowered name = lowered action) : arns.admits target role q = true := by
  unfold Arns.admits
  rw [hneeds]
  exact Policy.allows_of_mem (List.mem_of_getElem? hs) (List.mem_of_getElem? hn) hcase
    (List.mem_of_getElem? hr) (isGlob_self _)

end Admitted

section Provisions

variable {naming : Naming} {arns : Arns} {config : Config} {role : Role}

/-- Both roles may make the calls of the readiness probe. -/
theorem Probes.admitted {q : Request} (hp : naming.Provisioned arns config) (h : Probes config q) :
    arns.admits (naming.addressed config) role q = true := by
  have hmedia := congrArg some hp.media
  have hqueue := congrArg some hp.jobsQueue
  have htable := congrArg some hp.jobsTable
  cases h with
  | wait hq => cases q <;> first | rfl | cases hq
  | store =>
    cases role with
    | api => exact admits_named 3 0 0 rfl rfl rfl hmedia (by decide)
    | worker => exact admits_named 5 0 0 rfl rfl rfl hmedia (by decide)
  | queue =>
    cases role with
    | api => exact admits_named 3 1 1 rfl rfl rfl hqueue (by decide)
    | worker => exact admits_named 2 3 0 rfl rfl rfl hqueue (by decide)
  | table =>
    cases role with
    | api => exact admits_named 2 1 0 rfl rfl rfl htable (by decide)
    | worker => exact admits_named 3 1 0 rfl rfl rfl htable (by decide)

/-- The heartbeat may extend the visibility of what its worker has received. -/
theorem admits_heartbeat (hp : naming.Provisioned arns config) (receiptHandle : String) (seconds : Int) :
    arns.admits (naming.addressed config) .worker (.changeMessageVisibility receiptHandle seconds) =
      true :=
  admits_named 2 2 0 rfl rfl rfl (congrArg some hp.jobsQueue) (by decide)

end Provisions

/-! ## The calls of a deployment -/

section Calls

variable {ext : Externals} {config : Config} {fleet : Nat → Task} {naming : Naming} {arns : Arns}
  {G : Machine.Guard Nat Request Choice Cloud Request.Resp} {d : Site} {c : Pipe}

theorem Task.Asks.admitted {task : Task} {q : Request}
    (hp : naming.Provisioned arns (task.config config)) (h : task.Asks config q) :
    arns.admits (naming.addressed (task.config config)) task.role q = true := by
  cases h with
  | rejection => rfl
  | lookup => exact admits_named 2 1 0 rfl rfl rfl (congrArg some hp.jobsTable) (by decide)
  | pause hq => cases q <;> first | rfl | cases hq
  | probe hq => exact hq.admitted hp
  | startup hq => exact hq.admitted hp
  | poll => exact admits_named 2 0 0 rfl rfl rfl (congrArg some hp.jobsQueue) (by decide)
  | failedPoll => rfl

/-- What an upload asks for, the API may. -/
theorem CallerMay.admitted (hp : naming.Provisioned arns config) {u : Upload} {t : List Ev}
    {q : Request} (h : CallerMay (.build config) ext u t q) :
    arns.admits (naming.addressed config) .api q = true := by
  cases q with
  | putObject b k body ct =>
    obtain ⟨r, hst, -, rfl, rfl, -⟩ := h
    obtain ⟨x, hx⟩ := hst.new.inputKey
    rw [hx]
    exact admits_uploads hp.media r.jobId x
  | putItem item => exact admits_named 2 0 0 rfl rfl rfl (congrArg some hp.jobsTable) (by decide)
  | sendMessage body attributes =>
    exact admits_named 1 0 0 rfl rfl rfl (congrArg some hp.jobsQueue) (by decide)
  | _ => first | rfl | exact h.elim

/-- What a delivery asks for, the worker may: its job's original is an upload. -/
theorem WorkerMay.admitted (hp : naming.Provisioned arns config) {msg : RawMessage} {t : List Ev}
    {q : Request}
    (hkey : ∀ job, msg.job? ext = some job → ∃ x, job.inputKey = JobService.inputKey job.jobId x)
    (h : WorkerMay (.build config) ext msg t q) :
    arns.admits (naming.addressed config) .worker q = true := by
  have htable := congrArg some hp.jobsTable
  cases q with
  | putObject b k body ct =>
    obtain ⟨job, data, th, -, -, -, -, rfl, rfl, -⟩ := h
    exact admits_outputs hp.media job.jobId th.size
  | getObject b k =>
    obtain ⟨job, hjob, -, rfl, rfl⟩ := h
    obtain ⟨x, hx⟩ := hkey job hjob
    rw [hx]
    exact admits_original hp.media job.jobId x
  | getItem j => exact admits_named 3 1 0 rfl rfl rfl htable (by decide)
  | updateItem j up => exact admits_named 3 0 0 rfl rfl rfl htable (by decide)
  | deleteMessage r => exact admits_named 2 1 0 rfl rfl rfl (congrArg some hp.jobsQueue) (by decide)
  | _ => first | rfl | exact h.elim

theorem task_of_caller {n : Nat} {u : Upload} (hi : crew fleet (.caller n u) = true) :
    (fleet n).role = .api ∧ (fleet n).config config = config := by
  simp only [crew] at hi
  split at hi
  · rename_i hn
    rw [hn]
    exact ⟨rfl, rfl⟩
  · cases hi

theorem task_of_worker {m : Nat} {own : Config} {msg : RawMessage}
    (hi : crew fleet (.worker m own msg) = true) :
    (fleet m.unpair.1).role = .worker ∧ (fleet m.unpair.1).config config = own := by
  simp only [crew] at hi
  split at hi
  · rename_i hn
    rw [hn]
    exact ⟨rfl, (eq_of_beq hi).symm⟩
  · cases hi

/-- **No call is denied**: in every run of a deployment whose processes are configured for the bucket,
the queue and the table of the stack, every call that a process makes is one that the policy of its
role allows; and so is every call that the heartbeat of a worker can make. -/
theorem never_denied (hp : ∀ n, naming.Provisioned arns ((fleet n).config config))
    (h : (deployment ext config fleet).Reach G (Machine.initial Cloud.empty) d) :
    (∀ e ∈ d.log,
      arns.admits (naming.addressed ((fleet e.who).config config)) (fleet e.who).role e.req = true) ∧
    ∀ n own rounds, fleet n = .work own rounds → ∀ receiptHandle seconds,
      arns.admits (naming.addressed own) (fleet n).role
        (.changeMessageVisibility receiptHandle seconds) = true := by
  constructor
  · intro e he
    obtain ⟨c, hc, hs⟩ := within_of_reach h
    obtain hown | ⟨e', he', rfl⟩ := hs.log.of_mem he
    · exact hown.admitted (hp e.who)
    · obtain ⟨earlier, s', hmay, -⟩ := entry_may hc he'
      have hstarted : c.thread e'.who ≠ .idle := by
        intro hidle
        have hnone := hc.history_of_idle hidle
        have hmem : (⟨e'.req, e'.resp⟩ : Ev) ∈ history e'.who c.log :=
          mem_history.mpr ⟨e', he', rfl, rfl⟩
        rw [hnone] at hmem
        cases hmem
      have hcrew := admitted_of_started hc hstarted
      change arns.admits (naming.addressed ((fleet (owner e'.who).1).config config))
        (fleet (owner e'.who).1).role e'.req = true
      have hprov := hp (owner e'.who).1
      cases hwho : e'.who with
      | caller n u =>
        rw [hwho] at hmay hcrew hprov
        obtain ⟨hrole, hconfig⟩ : (fleet n).role = .api ∧ (fleet n).config config = config :=
          task_of_caller hcrew
        rw [owner, hconfig] at hprov
        rw [owner, hrole, hconfig]
        exact CallerMay.admitted hprov hmay
      | worker m own msg =>
        rw [hwho] at hmay hcrew hstarted hprov
        obtain ⟨hrole, hconfig⟩ : (fleet m.unpair.1).role = .worker ∧
            (fleet m.unpair.1).config config = own := task_of_worker hcrew
        rw [owner, hconfig] at hprov
        rw [owner, hrole, hconfig]
        refine WorkerMay.admitted hprov (fun job hjob => ?_) hmay
        obtain ⟨k, u, r, hs, hmsg⟩ := job_of_started hc hstarted
        obtain rfl := Option.some.inj (hmsg.symm.trans hjob)
        exact hs.new.inputKey
  · intro n own rounds hn receiptHandle seconds
    have hprov := hp n
    rw [hn] at hprov ⊢
    exact admits_heartbeat hprov receiptHandle seconds

end Calls

/-! ## Any programs under the two roles -/

section Enforced

variable {ext : Externals} {Proc Move α : Type} [DecidableEq Proc] {arns : Arns} {bucket key : String}
  {target : Proc → Addressed} {role : Proc → Role} {s₀ : Cloud}

/-- A call that takes effect is one that the role of its process may make. -/
def enforced (arns : Arns) (target : Proc → Addressed) (role : Proc → Role) :
    Machine.Guard Proc Request Choice Cloud Request.Resp :=
  fun _ e => e.choice.fault.takesEffect = true → arns.admits (target e.who) (role e.who) e.req = true

instance (arns : Arns) (target : Proc → Addressed) (role : Proc → Role)
    (log : List (Entry Proc Request Choice Cloud Request.Resp))
    (e : Entry Proc Request Choice Cloud Request.Resp) : Decidable (enforced arns target role log e) :=
  inferInstanceAs (Decidable (e.choice.fault.takesEffect = true →
    arns.admits (target e.who) (role e.who) e.req = true))

/-- The object under the key was written by a call of the role whose folder the key is in. -/
def WrittenBy (role : Proc → Role) (bucket key : String)
    (log : List (Entry Proc Request Choice Cloud Request.Resp)) (s : Cloud) : Prop :=
  ∃ e ∈ log, ∃ body ct rest, e.req = .putObject bucket key body ct ∧
    s.objects bucket key = some ⟨body, ct⟩ ∧ key.toList = (role e.who).folder.toList ++ '/' :: rest

theorem literal_folder (r : Role) : Literal r.folder := by
  cases r <;> unfold Literal <;> decide

theorem takesEffect_of_ne {s s' : Cloud} {q : Request} {ch : Choice} {r : q.Resp}
    (hp : s.perform ext q ch = some (r, s')) (hne : s' ≠ s) : ch.fault.takesEffect = true := by
  cases hf : ch.fault with
  | none => rfl
  | lost e => rfl
  | failed e =>
    unfold Cloud.perform at hp
    simp only [hf] at hp
    split at hp
    · exact absurd (Prod.mk.inj (Option.some.inj hp)).2.symm hne
    · cases hp

/-- **The folders of the roles are separate**: whatever programs run under the two roles, an object of
the bucket is as it was at first or was written by the role of its folder. -/
theorem written_by_role {M : Machine Proc Request Choice Move Cloud α Request.Resp}
    (hperform : M.perform = Cloud.perform ext)
    (hambient : ∀ s m s', M.ambient s m = some s' → s'.objects = s.objects)
    (hmedia : arns.media = bucketArn bucket) (hbucket : Literal bucket)
    {d : Snapshot Proc Request Choice Cloud α Request.Resp}
    (h : M.Reach (enforced arns target role) (Machine.initial s₀) d) :
    d.state.objects bucket key = s₀.objects bucket key ∨ WrittenBy role bucket key d.log d.state := by
  refine h.invariant (P := fun s log => s.objects bucket key = s₀.objects bucket key ∨
    WrittenBy role bucket key log s) (.inl rfl) ?_ ?_
  · intro s log m s' hP hm
    rw [WrittenBy, hambient s m s' hm]
    exact hP
  · intro c i q k ch r s' _ hP _ hp hG
    rw [hperform] at hp
    by_cases hsame : s'.objects bucket key = c.state.objects bucket key
    · rw [hsame]
      refine hP.imp_right ?_
      rintro ⟨e, he, body, ct, rest, hq, hobj, hkey⟩
      exact ⟨e, List.mem_cons_of_mem _ he, body, ct, rest, hq, hsame.trans hobj, hkey⟩
    · have hadmits : arns.admits (target i) (role i) q = true :=
        hG (takesEffect_of_ne hp fun hs => hsame (by rw [hs]))
      obtain rfl | he := Cloud.perform_effect hp
      · exact absurd rfl hsame
      · cases he with
        | @object b k' body ct =>
          rw [Cloud.setObject_objects] at hsame ⊢
          split at hsame
          · rename_i heq
            obtain ⟨rfl, rfl⟩ := heq
            obtain ⟨rest, hrest⟩ := of_fits_under hmedia hbucket (literal_folder (role i))
              (admits_putObject.mp hadmits)
            rw [if_pos ⟨rfl, rfl⟩]
            refine .inr ⟨_, List.mem_cons_self, body, ct, rest, rfl, ?_, hrest⟩
            rw [Cloud.setObject_objects, if_pos ⟨rfl, rfl⟩]
          · exact absurd rfl hsame
        | _ => exact absurd rfl hsame

end Enforced

/-! ## A scene -/

namespace Surroundings

def arns : Arns where
  media := "arn:aws:s3:::pixelforge-images"
  jobsQueue := "arn:aws:sqs:us-east-1:000000000000:pixelforge-jobs"
  jobsTable := "arn:aws:dynamodb:us-east-1:000000000000:table/pixelforge-jobs"

/-- The last path segment of a URL. -/
def lastSegment (url : String) : String :=
  String.ofList ((url.toList.reverse.takeWhile (· ≠ '/')).reverse)

/-- The names of one account of AWS, with the queues of one region. -/
def naming : Naming where
  queueArn url := "arn:aws:sqs:us-east-1:000000000000:" ++ lastSegment url
  tableArn region name := "arn:aws:dynamodb:" ++ region ++ ":000000000000:table/" ++ name

theorem provisioned : naming.Provisioned arns config := ⟨rfl, rfl, rfl⟩

theorem provisioned_smallFleet (n : Nat) : naming.Provisioned arns ((smallFleet n).config config) := by
  match n with
  | 0 => exact provisioned
  | 1 => exact provisioned
  | 2 => exact provisioned
  | 3 => exact provisioned
  | _ + 4 => exact provisioned

/-- The message of the upload was sent under the policy of the API, and the heartbeat of a worker may
keep it out of sight. -/
theorem never_denied_posted :
    (∃ e ∈ posted.log, (∃ body attributes, e.req = .sendMessage body attributes) ∧
      arns.admits (naming.addressed ((smallFleet e.who).config config)) (smallFleet e.who).role e.req =
        true) ∧
    arns.admits (naming.addressed config) (smallFleet 1).role (.changeMessageVisibility messageId 120) =
      true := by
  obtain ⟨hcalls, hbeats⟩ := never_denied provisioned_smallFleet reach_posted
  have hsent : posted.log[2]? = some _ := rfl
  have hmem := List.mem_of_getElem? hsent
  exact ⟨⟨_, hmem, ⟨_, _, rfl⟩, hcalls _ hmem⟩, hbeats 1 config 1 rfl messageId 120⟩

theorem reach_enforced : smallDeployment.Reach
    (enforced arns (fun _ => ⟨arns.jobsQueue, arns.jobsTable⟩) fun n => (smallFleet n).role)
    (Machine.initial Cloud.empty) posted := reach_posted.lawful rfl

theorem written_by_role_posted :
    WrittenBy (fun n => (smallFleet n).role) config.s3Bucket message.inputKey posted.log posted.state :=
  (written_by_role rfl (fun _ _ _ hm => by
    obtain ⟨m, -, -, rfl⟩ := Cloud.redrive_cases hm
    rfl) rfl (by unfold Literal; decide) reach_enforced).resolve_left nofun

end Surroundings

end PixelForge
