import PixelForge.Pipeline.Completion
import PixelForge.Pipeline.Provenance

/-! # What stands behind a message

Whenever a message is in the queue, an upload had stored the original and written the record
before it tried to send it (`SentBy`). The object is never overwritten, since keys of different
kinds and of different jobs differ, and the item keeps its `input_key` under every later write.
-/
set_option autoImplicit false

namespace PixelForge
open Effects

/-! ## Keys -/

section Keys

variable {j j' x x' : String} {n n' : Nat}

theorem length_of_isUuid (h : isUuid j = true) : j.toList.length = 36 := by
  unfold isUuid at h
  simpa using (Bool.and_eq_true_iff.mp h).1

theorem toString_nat_inj (h : toString n = toString n') : n = n' := by
  have hl : Nat.toDigits 10 n = Nat.toDigits 10 n' := by
    rw [← Nat.toList_repr, ← Nat.toList_repr]
    exact congrArg String.toList h
  rw [← Nat.ofDigitChars_ten_toDigits (n := n), hl, Nat.ofDigitChars_ten_toDigits]

theorem inputKey_inj (hj : isUuid j = true) (hj' : isUuid j' = true)
    (h : JobService.inputKey j x = JobService.inputKey j' x') : j = j' := by
  have hl := congrArg String.toList h
  simp only [JobService.inputKey, String.toList_append, List.append_assoc] at hl
  have hlen : j.toList.length = j'.toList.length := by
    rw [length_of_isUuid hj, length_of_isUuid hj']
  exact String.toList_inj.mp (List.append_inj (List.append_inj hl rfl).2 hlen).1

/-- The digits of a number, backwards, up to an underscore. -/
theorem takeWhile_digits (n : Nat) (rest : List Char) :
    ((Nat.toDigits 10 n).reverse ++ '_' :: rest).takeWhile (· != '_') =
      (Nat.toDigits 10 n).reverse := by
  rw [List.takeWhile_append_of_pos fun c hc => ?_, List.takeWhile_cons_of_neg (by decide),
    List.append_nil]
  have hd := Nat.isDigit_of_mem_toDigits (by decide) (by decide) (List.mem_reverse.mp hc)
  rw [bne_iff_ne]
  rintro rfl
  revert hd
  decide

/-- The last underscore of an output key stands before its size. -/
theorem outputKey_inj (h : outputKey j n = outputKey j' n') : j = j' ∧ n = n' := by
  have hl := congrArg String.toList h
  simp only [outputKey, String.toList_append, List.append_assoc] at hl
  have hkey := (List.append_inj hl rfl).2
  have hthumb : "/thumb_".toList = "/thumb".toList ++ ['_'] := by decide
  simp only [hthumb, ← List.append_assoc] at hkey
  have hsplit := congrArg List.reverse (List.append_cancel_right hkey)
  have hd : ∀ m : Nat, (toString m).toList.reverse = (Nat.toDigits 10 m).reverse := fun m =>
    congrArg List.reverse Nat.toList_repr
  simp only [List.reverse_append, List.reverse_cons, List.nil_append,
    List.cons_append, List.append_assoc, hd] at hsplit
  have hsize := congrArg (List.takeWhile (· != '_')) hsplit
  rw [takeWhile_digits, takeWhile_digits] at hsize
  rw [hsize] at hsplit
  have hid := List.append_cancel_left (List.cons.inj (List.append_cancel_left hsplit)).2
  refine ⟨String.toList_inj.mp (List.reverse_inj.mp hid), toString_nat_inj (String.toList_inj.mp ?_)⟩
  exact List.reverse_inj.mp (by rw [hd, hd, hsize])

theorem inputKey_ne_outputKey (j x j' : String) (n : Nat) :
    JobService.inputKey j x ≠ outputKey j' n := by
  intro h
  have hl := congrArg (fun s => s.toList.head?) h
  simp [JobService.inputKey, outputKey] at hl

theorem IsNew.inputKey {ext : Externals} {u : Upload} {r : JobRecord} (h : IsNew ext u r) :
    ∃ x, r.inputKey = JobService.inputKey r.jobId x := by
  obtain ⟨probe, jobId, traceId, createdAt, updatedAt, rfl⟩ := h
  exact ⟨probe.extension, rfl⟩

end Keys

/-! ## Sent messages -/

/-- The upload `u` has tried to send the message for `r`. By then it had stored the original and
written the record. -/
structure SentBy (ext : Externals) (config : Config) (log : Log) (n : Nat) (u : Upload)
    (r : JobRecord) : Prop where
  new : IsNew ext u r
  drawn : drawOk r.jobId ∈ journalOf (.caller n u) log
  stored : Stored (.build config) u r (journalOf (.caller n u) log)
  recorded : Recorded r (journalOf (.caller n u) log)
  sent : ∃ v ∈ journalOf (.caller n u) log, ∃ attributes, v.1 =
    .sendMessage (((JobService.build config).newMessage r).toJson ext) attributes

theorem SentBy.mono {ext : Externals} {config : Config} {log : Log} {n : Nat} {u : Upload}
    {r : JobRecord} (h : SentBy ext config log n u r) (e : LogEntry) :
    SentBy ext config (e :: log) n u r where
  new := h.new
  drawn := journal_mono e h.drawn
  stored := journal_mono e h.stored
  recorded := journal_mono e h.recorded
  sent := by
    obtain ⟨v, hv, hsend⟩ := h.sent
    exact ⟨v, journal_mono e hv, hsend⟩

section Runs

variable {ext : Externals} {config : Config} {staff : Proc → Bool} {G : PipeGuard} {c : Pipe}

theorem queue_step {e : LogEntry} {s' : Cloud} {mid : String} {m : QueuedMessage}
    (hp : e.before.perform ext e.req e.choice = some (e.resp, s')) (hm : s'.queue mid = some m) :
    (∃ m₀, e.before.queue mid = some m₀ ∧ m₀.body = m.body) ∨
      ∃ attributes, e.req = .sendMessage m.body attributes := by
  obtain ⟨who, s, q, ch, r⟩ := e
  obtain rfl | he := Cloud.perform_effect hp
  · exact .inl ⟨m, hm, rfl⟩
  · cases he with
    | object => exact .inl ⟨m, hm, rfl⟩
    | put => exact .inl ⟨m, hm, rfl⟩
    | update => exact .inl ⟨m, hm, rfl⟩
    | draw => exact .inl ⟨m, hm, rfl⟩
    | @send body attributes mid' hne hnone =>
      rw [Cloud.setMessage_queue] at hm
      split at hm
      · obtain rfl := Option.some.inj hm
        exact .inr ⟨attributes, rfl⟩
      · exact .inl ⟨m, hm, rfl⟩
    | @delete mid' m' hm' =>
      rw [Cloud.setMessage_queue] at hm
      split at hm
      · rename_i hmid
        obtain rfl := Option.some.inj hm
        exact .inl ⟨m', hmid ▸ hm', rfl⟩
      · exact .inl ⟨m, hm, rfl⟩

theorem queue_keeps {e : LogEntry} {s' : Cloud} {mid : String} {m : QueuedMessage}
    (hp : e.before.perform ext e.req e.choice = some (e.resp, s'))
    (hm : e.before.queue mid = some m) : ∃ m', s'.queue mid = some m' ∧ m'.body = m.body := by
  obtain ⟨who, s, q, ch, r⟩ := e
  obtain rfl | he := Cloud.perform_effect hp
  · exact ⟨m, hm, rfl⟩
  · cases he with
    | object => exact ⟨m, hm, rfl⟩
    | put => exact ⟨m, hm, rfl⟩
    | update => exact ⟨m, hm, rfl⟩
    | draw => exact ⟨m, hm, rfl⟩
    | @send body attributes mid' hne hnone =>
      have hmid : mid ≠ mid' := by
        rintro rfl
        rw [hnone] at hm
        cases hm
      exact ⟨m, by rw [Cloud.setMessage_queue, if_neg hmid]; exact hm, rfl⟩
    | @delete mid' m' hm' =>
      by_cases hmid : mid = mid'
      · subst hmid
        obtain rfl : m' = m := Option.some.inj (hm'.symm.trans hm)
        exact ⟨{ m' with place := .deleted }, by rw [Cloud.setMessage_queue, if_pos rfl], rfl⟩
      · exact ⟨m, by rw [Cloud.setMessage_queue, if_neg hmid]; exact hm, rfl⟩

/-- Only an upload sends, and only after it has stored and recorded. -/
theorem processMay_send {e : LogEntry} {log : Log} {body : String}
    {attributes : List (String × String)}
    (hmay : processMay ext config e.who (history e.who log) e.req)
    (hq : e.req = .sendMessage body attributes) :
    ∃ n u r, SentBy ext config (e :: log) n u r ∧
      body = ((JobService.build config).newMessage r).toJson ext := by
  obtain ⟨who, s, q, ch, ans⟩ := e
  obtain rfl : q = .sendMessage body attributes := hq
  cases who with
  | worker n own msg => exact hmay.elim
  | caller n u =>
    obtain ⟨r, hst, hobj, hrec, -, -, rfl⟩ := hmay
    exact ⟨n, u, r, ⟨hst.new, journal_mono _ hst.drawn, journal_mono _ hobj, journal_mono _ hrec,
      _, journal_of_entry (e := ⟨.caller n u, s, _, ch, ans⟩) List.mem_cons_self rfl,
      attributes, rfl⟩, rfl⟩

/-- **Every message was sent by an upload**, which had stored and recorded before. -/
theorem message_sentBy (h : (pipeline ext config staff).Reach G (Machine.initial Cloud.empty) c)
    {mid : String} {m : QueuedMessage} (hm : c.state.queue mid = some m) :
    ∃ n u r, SentBy ext config c.log n u r ∧
      m.body = ((JobService.build config).newMessage r).toJson ext := by
  revert mid m
  refine pipeline_invariant (P := fun s log => ∀ {mid m}, s.queue mid = some m →
    ∃ n u r, SentBy ext config log n u r ∧
      m.body = ((JobService.build config).newMessage r).toJson ext) ?_ ?_ ?_ h
  · intro mid m hm
    cases hm
  · intro s log mid m hP hm _ mid' m' hm'
    rw [Cloud.setMessage_queue] at hm'
    split at hm'
    · obtain rfl := Option.some.inj hm'
      exact hP (m := m) hm
    · exact hP hm'
  · intro c e s' _ hP hbefore _ hmay hp _ mid m hm
    obtain ⟨m₀, hm₀, hbody⟩ | ⟨attributes, hq⟩ := queue_step hp hm
    · obtain ⟨n, u, r, hsent, hjson⟩ := hP (hbefore ▸ hm₀)
      exact ⟨n, u, r, hsent.mono e, hbody ▸ hjson⟩
    · exact processMay_send hmay hq

/-- The message this process handles, if it is a worker, is in the queue. -/
def Delivered (s : Cloud) : Proc → Prop
  | .caller _ _ => True
  | .worker _ _ msg => ∃ mid m, msg.receiptHandle = some mid ∧ s.queue mid = some m ∧
      msg.body = some m.body

theorem message_of_started
    (h : (pipeline ext config staff).Reach G (Machine.initial Cloud.empty) c) {n : Nat}
    {own : Config} {msg : RawMessage} (hi : c.thread (.worker n own msg) ≠ .idle) :
    ∃ mid m, msg.receiptHandle = some mid ∧ c.state.queue mid = some m ∧
      msg.body = some m.body := by
  refine h.since_start (F := fun i s => Delivered s i) (fun s i hs => ?_)
    (fun i s mid' s' hF hs => ?_) (fun i s q ch r s' hF hp => ?_) (.worker n own msg) hi
  · cases i with
    | caller n u => trivial
    | worker n own msg =>
      have hoff : s.offers msg = true := (Bool.and_eq_true_iff.mp hs).2
      unfold Cloud.offers at hoff
      split at hoff
      · cases hoff
      · rename_i mid hmid
        split at hoff
        · cases hoff
        · rename_i m hm
          exact ⟨mid, m, hmid, hm, by simpa using (Bool.and_eq_true_iff.mp hoff).2⟩
  · cases i with
    | caller n u => trivial
    | worker n own msg =>
      obtain ⟨mid, m, hmid, hm, hbody⟩ := hF
      obtain ⟨m', hm', -, rfl⟩ := Cloud.redrive_cases hs
      by_cases heq : mid = mid'
      · subst heq
        obtain rfl : m' = m := Option.some.inj (hm'.symm.trans hm)
        exact ⟨mid, { m' with place := .onDeadLetter }, hmid,
          by rw [Cloud.setMessage_queue, if_pos rfl], hbody⟩
      · exact ⟨mid, m, hmid, by rw [Cloud.setMessage_queue, if_neg heq]; exact hm, hbody⟩
  · cases i with
    | caller n u => trivial
    | worker n own msg =>
      obtain ⟨mid, m, hmid, hm, hbody⟩ := hF
      obtain ⟨m', hm', hb⟩ := queue_keeps (e := ⟨.worker n own msg, s, q, ch, r⟩) hp hm
      exact ⟨mid, m', hmid, hm', hb ▸ hbody⟩

/-- **Every worker handles the message of an upload.** -/
theorem job_of_started (h : (pipeline ext config staff).Reach G (Machine.initial Cloud.empty) c)
    {n : Nat} {own : Config} {msg : RawMessage} (hi : c.thread (.worker n own msg) ≠ .idle) :
    ∃ k u r, SentBy ext config c.log k u r ∧
      msg.job? ext = some ((JobService.build config).newMessage r) := by
  obtain ⟨mid, m, -, hm, hbody⟩ := message_of_started h hi
  obtain ⟨k, u, r, hsent, hjson⟩ := message_sentBy h hm
  refine ⟨k, u, r, hsent, ?_⟩
  rw [RawMessage.job?, hbody, Option.getD_some, hjson, JobMessage.ofJson?_toJson ext rfl]

/-! ## One upload, one record -/

/-- The stored original fixes the key of the record. -/
theorem Story.inputKey_eq {svc : JobService} {u : Upload} {r r' : JobRecord} {t : List Ev}
    (h : Story svc ext u r t) (hst : Stored svc u r' t) : r'.inputKey = r.inputKey :=
  (h.writes hst (by simp)).2.1

/-- An item that is put under the id a process drew was put by this process, for its stored
original. -/
theorem put_backed (h : (pipeline ext config staff).Reach G (Machine.initial Cloud.empty) c)
    {i k : Proc} {d : PyDict} {it : Item} {j : String}
    (hmay : processMay ext config i (history i c.log) (.putItem d))
    (hd : serializeDict d = .ok it) (hj : itemKey it = some j)
    (hdrawn : drawOk j ∈ journalOf k c.log) :
    i = k ∧ it.Typed ext.intOfStr ∧ ∃ n u r, k = .caller n u ∧
      Stored (.build config) u r (journalOf k c.log) ∧ it.get "input_key" = some (.s r.inputKey) := by
  obtain ⟨n, u, r, r', rfl, hstory, hst, hstored, hid, hkey, -⟩ := processMay_put hmay hd
  have hjob : r.jobId = j := by
    have hget := hstored.jobId
    rw [itemKey_of_get hj, hid] at hget
    exact (AttrValue.s.inj (Option.some.inj hget)).symm
  obtain rfl := same_drawer h (hjob ▸ hstory.drawn) hdrawn
  exact ⟨rfl, hstored.typed, n, u, r, rfl, hst, hkey ▸ hstored.inputKey⟩

theorem stored_of_recordedOk {e : LogEntry} {s' : Cloud} {d : PyDict}
    (hp : e.before.perform ext e.req e.choice = some (e.resp, s')) (hev : eventOf e = recordedOk d) :
    ∃ it j, serializeDict d = .ok it ∧ itemKey it = some j ∧ s'.table j = some it := by
  obtain ⟨who, s, q, ch, ans⟩ := e
  cases hev
  have hserve := Cloud.perform_ok hp
  simp only [Cloud.serve] at hserve
  split at hserve
  · cases hserve
  · rename_i it hd
    split at hserve
    · rename_i j hj
      obtain ⟨-, rfl⟩ := Prod.mk.inj (Option.some.inj hserve)
      exact ⟨it, j, hd, hj, by rw [Cloud.setItem_table, if_pos rfl]⟩
    · cases hserve

theorem key_of_put {i : Proc} {hist : History} {d : PyDict} {it : Item} {j j' : String}
    (hmay : processMay ext config i hist (.putItem d)) (hd : serializeDict d = .ok it)
    (hj : itemKey it = some j) (hdrawn : drawOk j' ∈ journal hist) : j = j' := by
  obtain ⟨n, u, r, r', rfl, hstory, hst, hstored, hid, hkey, -⟩ := processMay_put hmay hd
  have hget := hstored.jobId
  rw [itemKey_of_get hj, hid, ← hstory.jobId_eq hdrawn] at hget
  exact AttrValue.s.inj (Option.some.inj hget)

theorem journal_of_drawOk {i : Proc} {hist : History}
    (hmay : processMay ext config i hist .uuid4) : journal hist = [] := by
  cases i with
  | caller n u => exact hmay
  | worker n own msg => exact hmay.elim

/-- Right after a caller has drawn its id, its journal holds nothing else. -/
theorem only_drawn {log : Log} {e : LogEntry} {i : Proc} {j : String} {v : Ev}
    (hmay : processMay ext config e.who (history e.who log) e.req) (hwho : e.who = i)
    (hev : drawOk j = ⟨e.req, e.resp⟩) (hv : v ∈ journalOf i (e :: log)) : v = drawOk j := by
  have hq : e.req = .uuid4 := congrArg Sigma.fst hev.symm
  rw [hq] at hmay
  obtain hold | ⟨-, hev'⟩ := journal_cases hv
  · rw [← hwho, journal_of_drawOk hmay] at hold
    cases hold
  · exact hev'.trans hev.symm

/-! ## Objects and items -/

/-- **An original is never overwritten.** -/
theorem object_of_stored (h : (pipeline ext config staff).Reach G (Machine.initial Cloud.empty) c)
    {n : Nat} {u : Upload} {b k ct : String} {data : Bytes}
    (hv : storedOk b k data ct ∈ journalOf (.caller n u) c.log) :
    c.state.objects b k = some ⟨data, ct⟩ := by
  revert hv
  refine pipeline_invariant (P := fun s log => storedOk b k data ct ∈ journalOf (.caller n u) log →
    s.objects b k = some ⟨data, ct⟩) ?_ ?_ ?_ h
  · intro hv
    cases hv
  · exact fun s log mid m hP _ _ hv => hP hv
  · intro c e s' hr hP hbefore _ hmay hp _ hv
    obtain hold | ⟨-, hev⟩ := journal_cases hv
    · have hobj : e.before.objects b k = some ⟨data, ct⟩ := hbefore ▸ hP hold
      obtain ⟨r, hstory⟩ := story_of_mem hr hold
      obtain ⟨hb, hk, hdata, hct⟩ := hstory.writes hold (by simp)
      obtain ⟨x, hx⟩ := hstory.new.inputKey
      obtain ⟨who, s, q, ch, ans⟩ := e
      obtain rfl | he := Cloud.perform_effect hp
      · exact hobj
      · cases he with
        | @object b' k' body ct' =>
          rw [Cloud.setObject_objects]
          split
          · rename_i heq
            obtain ⟨rfl, rfl⟩ := heq
            cases who with
            | worker n' own msg =>
              obtain ⟨_, _, th, -, -, -, -, -, hout, -⟩ := hmay
              exact absurd (hx ▸ hk ▸ hout) (inputKey_ne_outputKey _ _ _ _)
            | caller n' u' =>
              obtain ⟨r', hstory', -, -, hk', hbody, hct'⟩ := hmay
              obtain ⟨x', hx'⟩ := hstory'.new.inputKey
              have hjob : r'.jobId = r.jobId := inputKey_inj (uuid_of_drawn hr hstory'.drawn)
                (uuid_of_drawn hr hstory.drawn) (by rw [← hx', ← hx, ← hk', ← hk])
              obtain ⟨rfl, rfl⟩ := Proc.caller.inj
                (same_drawer hr hstory.drawn (hjob ▸ hstory'.drawn))
              obtain ⟨-, -, -, hct''⟩ := hstory'.writes hold (by simp)
              rw [hbody, hct', hdata, hct'']
          · exact hobj
        | put => exact hobj
        | update => exact hobj
        | send => exact hobj
        | delete => exact hobj
        | draw => exact hobj
    · obtain ⟨who, s, q, ch, ans⟩ := e
      cases hev
      obtain ⟨-, rfl⟩ := Prod.mk.inj (Option.some.inj (Cloud.perform_ok hp))
      rw [Cloud.setObject_objects, if_pos ⟨rfl, rfl⟩]

/-- A job that was recorded keeps an item, well typed and with the `input_key` of its original. -/
theorem item_of_put (h : (pipeline ext config staff).Reach G (Machine.initial Cloud.empty) c)
    {n : Nat} {u : Upload} {j : String} {d : PyDict}
    (hdrawn : drawOk j ∈ journalOf (.caller n u) c.log)
    (hrec : recordedOk d ∈ journalOf (.caller n u) c.log) :
    ∃ it r, c.state.table j = some it ∧ it.Typed ext.intOfStr ∧ it.get "job_id" = some (.s j) ∧
      Stored (.build config) u r (journalOf (.caller n u) c.log) ∧
      it.get "input_key" = some (.s r.inputKey) := by
  revert hdrawn hrec
  refine pipeline_invariant (P := fun s log => drawOk j ∈ journalOf (.caller n u) log →
    recordedOk d ∈ journalOf (.caller n u) log →
      ∃ it r, s.table j = some it ∧ it.Typed ext.intOfStr ∧ it.get "job_id" = some (.s j) ∧
        Stored (.build config) u r (journalOf (.caller n u) log) ∧
        it.get "input_key" = some (.s r.inputKey)) ?_ ?_ ?_ h
  · intro hdrawn
    cases hdrawn
  · exact fun s log mid m hP _ _ => hP
  · intro c e s' hr hP hbefore _ hmay hp _ hdrawn hrec
    obtain hdrew | ⟨hwho, hev⟩ := journal_cases hdrawn
    · obtain hrec | ⟨hwho, hev⟩ := journal_cases hrec
      · obtain ⟨it, r, htable, htyped, hid, hst, hkey⟩ := hP hdrew hrec
        rw [← hbefore] at htable
        cases itemStep hp j with
        | same hs => exact ⟨it, r, hs.trans htable, htyped, hid, journal_mono e hst, hkey⟩
        | @update up it' hq ha hs hm =>
          rw [hq] at hmay
          rw [htable] at ha
          obtain ⟨_, _, _, _, -, -, -, -, hdue⟩ := processMay_update hmay
          refine ⟨it', r, hs, htyped.update hdue.known hdue.plainOutputs ha, ?_,
            journal_mono e hst, ?_⟩
          · rw [hdue.known.get_untouched (by decide) ha, hid]
          · rw [hdue.known.get_untouched (by decide) ha, hkey]
        | put hq hd hj hs =>
          rw [hq] at hmay
          obtain ⟨-, htyped', n', u', r', heq, hst', hkey'⟩ := put_backed hr hmay hd hj hdrew
          obtain ⟨rfl, rfl⟩ := Proc.caller.inj heq
          exact ⟨_, r', hs, htyped', itemKey_of_get hj, journal_mono e hst', hkey'⟩
      · obtain ⟨it, j', hd, hj', htable⟩ := stored_of_recordedOk hp hev.symm
        have hq : e.req = .putItem d := congrArg Sigma.fst hev.symm
        rw [hq] at hmay
        obtain rfl := key_of_put hmay hd hj' (hwho ▸ hdrew)
        obtain ⟨-, htyped, n', u', r, heq, hst, hkey⟩ := put_backed hr hmay hd hj' hdrew
        obtain ⟨rfl, rfl⟩ := Proc.caller.inj heq
        exact ⟨it, r, htable, htyped, itemKey_of_get hj', journal_mono e hst, hkey⟩
    · cases only_drawn hmay hwho hev hrec

/-- **What stands behind a message**: the item of its job, well typed and with its `input_key`,
and under this key the bytes that were uploaded. -/
theorem SentBy.backed (h : (pipeline ext config staff).Reach G (Machine.initial Cloud.empty) c)
    {n : Nat} {u : Upload} {r : JobRecord} (hs : SentBy ext config c.log n u r) :
    (∃ it, c.state.table r.jobId = some it ∧ it.Typed ext.intOfStr ∧
      it.get "job_id" = some (.s r.jobId) ∧ it.get "input_key" = some (.s r.inputKey)) ∧
    c.state.objects config.s3Bucket r.inputKey = some ⟨u.data, r.contentType⟩ := by
  obtain ⟨it, r', htable, htyped, hid, hst, hkey⟩ := item_of_put h hs.drawn hs.recorded
  obtain ⟨r₀, hstory⟩ := story_of_mem h hs.stored
  refine ⟨⟨it, htable, htyped, hid, ?_⟩, object_of_stored h hs.stored⟩
  rw [hkey, hstory.inputKey_eq hst, hstory.inputKey_eq hs.stored]

theorem started_of_journal {s₀ : Cloud}
    (h : (pipeline ext config staff).Reach G (Machine.initial s₀) c) {i : Proc} {v : Ev}
    (hv : v ∈ journalOf i c.log) : c.thread i ≠ .idle := by
  intro hid
  rw [journalOf, h.history_of_idle hid] at hv
  cases hv

theorem lookup_finds (h : (pipeline ext config staff).Reach G (Machine.initial Cloud.empty) c)
    {n : Nat} {own : Config} {msg : RawMessage} {job : JobMessage} {it : Option Item}
    (hjob : msg.job? ext = some job)
    (hv : readOk job.jobId it ∈ journalOf (.worker n own msg) c.log) :
    ∃ record, JobTable.decodeItem ext.intOfStr it = .ok (some record) := by
  revert hv
  refine pipeline_invariant (P := fun _ log =>
    readOk job.jobId it ∈ journalOf (.worker n own msg) log →
      ∃ record, JobTable.decodeItem ext.intOfStr it = .ok (some record)) ?_ ?_ ?_ h
  · intro hv
    cases hv
  · exact fun _ _ _ _ hP _ _ => hP
  · intro c e s' hr hP hbefore hrun _ hp _ hv
    obtain hold | ⟨hwho, hev⟩ := journal_cases hv
    · exact hP hold
    · obtain ⟨k, u, r, hsent, hmsg⟩ := job_of_started hr (hwho ▸ hrun)
      obtain rfl := Option.some.inj (hmsg.symm.trans hjob)
      obtain ⟨⟨item, htable, htyped, -⟩, -⟩ := hsent.backed hr
      obtain ⟨-, hshow⟩ := lookup_shows hp hev
      rw [hbefore] at hshow
      rw [show it = some item from hshow.symm.trans htable]
      obtain ⟨record, hrecord, -⟩ := htyped.decodeItem
      exact ⟨record, hrecord⟩

/-- **Never a queued job with no object behind it**: the message of every upload decodes, names the
configured bucket, and has its record and the uploaded bytes; a worker with the same configuration
finds the message well formed, of a known version and for its bucket, and its record there. -/
theorem queued_backed
    (h : (pipeline ext config staff).Reach Machine.always (Machine.initial Cloud.empty) c) :
    (∀ mid m, c.state.queue mid = some m → ∃ n u job it record, ∃ e ∈ c.log,
      e.who = .caller n u ∧ (∃ attributes, e.req = .sendMessage m.body attributes) ∧
      JobMessage.ofJson? ext m.body = some job ∧ job.schemaVersion ≤ messageSchemaVersion ∧
      job.bucket = config.s3Bucket ∧ c.state.table job.jobId = some it ∧
      JobTable.decodeItem ext.intOfStr (some it) = .ok (some record) ∧
      record.jobId = job.jobId ∧ record.inputKey = job.inputKey ∧
      (c.state.objects config.s3Bucket job.inputKey).map (·.body) = some u.data) ∧
    ∀ n msg, c.thread (.worker n config msg) ≠ .idle → ∃ job, msg.job? ext = some job ∧
      job.schemaVersion ≤ messageSchemaVersion ∧ job.bucket = config.s3Bucket ∧
      ∀ it, readOk job.jobId it ∈ journalOf (.worker n config msg) c.log →
        ∃ record, JobTable.decodeItem ext.intOfStr it = .ok (some record) := by
  refine ⟨fun mid m hm => ?_, fun n msg hi => ?_⟩
  · obtain ⟨n, u, r, hsent, hbody⟩ := message_sentBy h hm
    obtain ⟨⟨it, htable, htyped, hid, hkey⟩, hobj⟩ := hsent.backed h
    obtain ⟨v, hv, attributes, hsend⟩ := hsent.sent
    obtain ⟨e, he, hw, rfl⟩ := entry_of_journal hv
    obtain ⟨record, hrecord, hdec⟩ := htyped.decodeItem
    refine ⟨n, u, (JobService.build config).newMessage r, it, record, e, he, hw,
      ⟨attributes, hbody ▸ hsend⟩, ?_, le_refl _, rfl, htable, hrecord, ?_, ?_, ?_⟩
    · rw [hbody, JobMessage.ofJson?_toJson ext rfl]
    · exact AttrValue.s.inj (Option.some.inj (hdec.jobId.symm.trans hid))
    · exact AttrValue.s.inj (Option.some.inj (hdec.inputKey.symm.trans hkey))
    · rw [show ((JobService.build config).newMessage r).inputKey = r.inputKey from rfl, hobj]
      rfl
  · obtain ⟨k, u, r, hsent, hmsg⟩ := job_of_started h hi
    exact ⟨_, hmsg, le_refl _, rfl, fun it hv => lookup_finds h hmsg hv⟩

end Runs

section Scene
open Surroundings

theorem queued_backed_accepted : ∃ mid m n u job it,
    (accepted goodUpload).state.queue mid = some m ∧ JobMessage.ofJson? small m.body = some job ∧
    job.bucket = config.s3Bucket ∧ (accepted goodUpload).state.table job.jobId = some it ∧
    ((accepted goodUpload).state.objects config.s3Bucket job.inputKey).map (·.body) =
      some (Upload.data u) ∧ ∃ e ∈ (accepted goodUpload).log, e.who = .caller n u := by
  obtain ⟨n, u, job, it, record, e, he, hwho, -, hjob, -, hbucket, hit, -, -, -, hobj⟩ :=
    (queued_backed (reach_accepted goodUpload)).1 messageId _ accepted_good_queue
  exact ⟨messageId, _, n, u, job, it, accepted_good_queue, hjob, hbucket, hit, hobj, e, he, hwho⟩

end Scene

end PixelForge
