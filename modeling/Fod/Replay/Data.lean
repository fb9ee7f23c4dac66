import Fod.Replay.Payload
import Fod.Replay.Creations

/-!
# Objects, payload and reservations are written once

The operations on data objects, the quota and leases.  Some find a token or the state
that they have left; flushes and holes are made again.
-/

namespace Fod.Replay

open Fod.Data
open Scan (ok_of_bind)

variable {cfg : Config} {t t' : Tables} {reply : Reply} {ids : Equiv.Perm Nat}

structure Tables.WellFormed (t : Tables) : Prop where
  object : Fresh t.data
  file : ∀ f row, t.data.files.lookup f = some row → row.dataObject < t.data.nextObject
  hash : ∀ o row, t.hashes.lookup o = some row → o < t.data.nextObject
  token : ∀ k o, t.dataObjectTokens.lookup k = some o → o < t.data.nextObject

lemma SameData.isSome {db db' : Db} (h : SameData ids db db') (o : Nat) :
    (db'.objects.lookup (ids o)).isSome = (db.objects.lookup o).isSome := by
  have hcount := congrArg Option.isSome (h.count o)
  simpa using hcount

lemma Alike.setData {db' : Db} {n : Nat} (hsame : SameData ids t.data db')
    (hids : ∀ o < n, ids o = o)
    (hhash : ∀ o row, t.hashes.lookup o = some row → o < n ∧ (t.data.objects.lookup o).isSome)
    (htoken : ∀ k o, t.dataObjectTokens.lookup k = some o →
      o < n ∧ (t.data.objects.lookup o).isSome) : Alike ids t (t.setData db') where
  rest := rfl
  data := hsame
  hash o := by
    -- ids from the sequence on are translated to such ids
    have hfrom : ids o < n → o < n := fun hlt => ids.injective (hids _ hlt) ▸ hlt
    simp only [Tables.setData, Table.lookup_keep_key, hsame.isSome]
    cases hrow : t.hashes.lookup o with
    | none =>
      by_cases hlt : ids o < n
      · rw [hids o (hfrom hlt), hrow, ite_self]
      · cases hrow' : t.hashes.lookup (ids o) with
        | none => simp
        | some row => exact absurd (hhash _ row hrow').1 hlt
    | some row =>
      obtain ⟨hlt, hsome⟩ := hhash o row hrow
      rw [hids o hlt, if_pos hsome, hrow]
  token k := by
    simp only [Tables.setData, Table.lookup_keep]
    cases hrow : t.dataObjectTokens.lookup k with
    | none => rfl
    | some o =>
      obtain ⟨hlt, hsome⟩ := htoken k o hrow
      have hthere := hsame.isSome o
      rw [hids o hlt] at hthere
      simp [Option.filter, hthere, hsome, hids o hlt]
  reservation _ := rfl

lemma length_keys_eq {blocks blocks' : Table Nat Bytes}
    (h : ∀ b, blocks'.lookup b = blocks.lookup b) : blocks'.keys.length = blocks.keys.length := by
  have hsum : ∀ blocks : Table Nat Bytes, blocks.keys.length = blocks.sumWith fun _ _ => 1 := by
    intro blocks
    simp [AList.keys, List.keys, Table.sumWith]
  rw [hsum, hsum]
  exact Table.sumWith_eq_of_lookup (Equiv.refl Nat) fun b => by simp [h b]

lemma Alike.payloadBytes (h : Alike ids t t') :
    t'.persistedAndReservedPayloadBytes cfg = t.persistedAndReservedPayloadBytes cfg := by
  have hobjects : t'.data.objects.sumWith (fun _ object => object.blocks.keys.length) =
      t.data.objects.sumWith (fun _ object => object.blocks.keys.length) := by
    refine Table.sumWith_eq_of_lookup ids fun o => ?_
    have hcount := h.data.count o
    have hblock := h.data.block o
    cases hobject : t.data.objects.lookup o with
    | none =>
      rw [hobject] at hcount
      simp [Option.map_eq_none_iff.mp hcount]
    | some object =>
      rw [hobject] at hcount hblock
      obtain ⟨object', hobject', -⟩ := Option.map_eq_some_iff.mp hcount
      rw [hobject'] at hblock
      simpa [hobject'] using length_keys_eq hblock
  have hreserved : t'.reservations.sumWith (Quota.Reservation.counted cfg.now none) =
      t.reservations.sumWith (Quota.Reservation.counted cfg.now none) :=
    Table.sumWith_eq_of_lookup (Equiv.refl Nat) fun k => by simp [h.reservation k]
  rw [Tables.persistedAndReservedPayloadBytes, Tables.persistedAndReservedPayloadBytes, hobjects,
    hreserved]

lemma Alike.enforce (h : Alike ids t t') (hok : t.enforcePayloadQuota cfg = .ok ()) :
    t'.enforcePayloadQuota cfg = .ok () := by
  unfold Tables.enforcePayloadQuota at *
  rw [h.payloadBytes]
  exact hok

lemma eq_of_ok {α β : Type} {p : α × β} {a : α} {b : β}
    (h : (Except.ok p : Except Error (α × β)) = .ok (a, b)) : a = p.1 ∧ b = p.2 := by
  cases h
  exact ⟨rfl, rfl⟩

lemma createDataObject_token (t : Tables) (token size : Nat) (hash : Option Text) :
    (t.createDataObject token size hash).1.dataObjectTokens.lookup token =
      some (t.createDataObject token size hash).2 := by
  simp only [Tables.createDataObject]
  split <;> exact AList.lookup_insert _

lemma createDataObject_once {token size : Nat} {hash : Option Text}
    (hfirst : (Operation.createDataObject token size hash).attempt cfg t = .ok (t', reply)) :
    Operation.ExactlyOnce cfg t (.createDataObject token size hash) t' reply := by
  rcases (Operation.attempt_cases hfirst).2 with ⟨hfound, rfl⟩ | ⟨-, hbody⟩
  · exact .of_probe hfirst hfound
  · obtain ⟨rfl, rfl⟩ := eq_of_ok hbody
    exact .of_probe hfirst (congrArg (Option.map Reply.id) (createDataObject_token t token size hash))

lemma promoteHardlinkToPrimary_token {f : Nat} {row : File} (hrow : t.files.lookup f = some row)
    (token : Nat) :
    ((t.promoteHardlinkToPrimary token f).1.promotionTokens.lookup token).map Prod.snd =
      some (t.promoteHardlinkToPrimary token f).2 := by
  simp only [Tables.promoteHardlinkToPrimary, hrow]
  split <;> simp

lemma promoteHardlinkToPrimary_once {token f : Nat}
    (hfirst : (Operation.promoteHardlinkToPrimary token f).attempt cfg t = .ok (t', reply)) :
    Operation.ExactlyOnce cfg t (.promoteHardlinkToPrimary token f) t' reply := by
  rcases (Operation.attempt_cases hfirst).2 with ⟨hfound, rfl⟩ | ⟨-, hbody⟩
  · exact .of_probe hfirst hfound
  · have ht' : t' = (t.promoteHardlinkToPrimary token f).1 := (eq_of_ok hbody).1
    have hreply : reply = .answer (t.promoteHardlinkToPrimary token f).2 := (eq_of_ok hbody).2
    cases hrow : t.files.lookup f with
    | none =>
      -- nothing is left of this run, and there is nothing to find
      have heq : t' = t := by simp [ht', Tables.promoteHardlinkToPrimary, hrow]
      subst heq
      exact .of_unchanged hfirst
    | some row =>
      refine .of_probe hfirst ?_
      have htoken := congrArg (Option.map Reply.answer) (promoteHardlinkToPrimary_token hrow token)
      rw [ht', hreply]
      simpa [Operation.probe, Function.comp_def] using htoken

lemma acquireFlockLease_token (t : Tables) (token : Nat) (key : FlockKey) (exclusive : Bool)
    (ttl : Nat) (lockGranted : Bool) :
    (t.acquireFlockLease cfg token key exclusive ttl lockGranted).1.lockTokens.lookup token =
      some (t.acquireFlockLease cfg token key exclusive ttl lockGranted).2 := by
  simp only [Tables.acquireFlockLease]
  split
  · exact AList.lookup_insert _
  · split <;> exact AList.lookup_insert _

lemma acquireFlockLease_once {token : Nat} {key : FlockKey} {exclusive lockGranted : Bool}
    {ttl : Nat}
    (hfirst : (Operation.acquireFlockLease token key exclusive ttl lockGranted).attempt cfg t =
      .ok (t', reply)) :
    Operation.ExactlyOnce cfg t (.acquireFlockLease token key exclusive ttl lockGranted) t' reply := by
  rcases (Operation.attempt_cases hfirst).2 with ⟨hfound, rfl⟩ | ⟨-, hbody⟩
  · exact .of_probe hfirst hfound
  · obtain ⟨rfl, rfl⟩ := eq_of_ok hbody
    exact .of_probe hfirst (congrArg (Option.map Reply.answer)
      (acquireFlockLease_token t token key exclusive ttl lockGranted))

lemma adopt_cases (db : Db) (src dst : Nat) :
    ((db.adoptSourceDataObject src dst).2 = false ∧ (db.adoptSourceDataObject src dst).1 = db) ∨
      ((db.adoptSourceDataObject src dst).2 = true ∧
        ∀ t : Tables, t.data = (db.adoptSourceDataObject src dst).1 →
          t.alreadyAdopted src dst = true) := by
  unfold Db.adoptSourceDataObject
  cases hsrc : db.files.lookup src with
  | none => exact .inl ⟨rfl, rfl⟩
  | some srcRow =>
    cases hdst : db.files.lookup dst with
    | none => exact .inl ⟨rfl, rfl⟩
    | some dstRow =>
      dsimp only
      split
      · exact .inl ⟨rfl, rfl⟩
      rename_i hsize
      split
      · rename_i hsame
        refine .inr ⟨rfl, fun t ht => ?_⟩
        rw [Tables.alreadyAdopted, ht, hsrc, hdst]
        simp [hsize, hsame.1, hsame.2]
      split
      · exact .inl ⟨rfl, rfl⟩
      · rename_i hempty
        have hne : src ≠ dst := by
          rintro rfl
          rw [hsrc] at hdst
          cases hdst
          exact hempty (.inr rfl)
        have hfound : ∀ t : Tables,
            t.data.files = db.files.insert dst ⟨srcRow.size, srcRow.dataObject⟩ →
            t.alreadyAdopted src dst = true := by
          intro t ht
          rw [Tables.alreadyAdopted, ht, AList.lookup_insert_ne hne, hsrc, AList.lookup_insert]
          simp [hsize]
        split
        · exact .inr ⟨rfl, fun t ht => hfound t (by rw [ht]; simp [Db.setFile])⟩
        · exact .inr ⟨rfl, fun t ht => hfound t (by
            rw [ht]
            simp [Db.setFile, Db.touchOldObject])⟩

lemma setData_setData (t : Tables) (db : Db) : (t.setData db).setData db = t.setData db := by
  have hkeep : ∀ {ν : Type} (rows : Table Nat ν) (wanted : Nat → ν → Bool),
      (rows.keep wanted).keep wanted = rows.keep wanted := by
    intro ν rows wanted
    exact AList.ext (by simp [Table.keep])
  simp [Tables.setData, hkeep]

variable {fence : Option Nat}

lemma adoptSourceDataObject_once {src dst : Nat}
    (hfirst : (Operation.adoptSourceDataObject src dst fence).attempt cfg t = .ok (t', reply)) :
    Operation.ExactlyOnce cfg t (.adoptSourceDataObject src dst fence) t' reply := by
  rcases (Operation.attempt_cases hfirst).2 with ⟨hfound, rfl⟩ | ⟨hprobe, hbody⟩
  · exact .of_probe hfirst hfound
  · obtain ⟨adopted, hadopt, rfl⟩ := ok_of_map_reply hbody
    obtain ⟨_, hfence, hadopt⟩ := ok_of_bind hadopt
    have ht' : t' = t.setData (t.data.adoptSourceDataObject src dst).1 := (eq_of_ok hadopt).1
    have hadopted : adopted = (t.data.adoptSourceDataObject src dst).2 := (eq_of_ok hadopt).2
    rcases adopt_cases t.data src dst with ⟨hno, hsame⟩ | ⟨hyes, hfound⟩
    · -- the second run is refused for the same reason
      rw [hsame] at ht'
      have hprobe' : (Operation.adoptSourceDataObject src dst fence).probe t' = none := by
        rw [ht']
        exact hprobe
      have hbody' : t'.adoptSourceDataObject src dst fence = .ok (t', adopted) := by
        have hfence' : t'.requireWriteFence dst fence = .ok () := by
          rw [ht']
          exact hfence
        have hdata : t'.data = t.data := by rw [ht']; rfl
        simp only [Tables.adoptSourceDataObject, hfence', hdata, hadopted, hsame]
        rw [ht']
        exact congrArg (fun t => Except.ok (t, _)) (setData_setData t t.data)
      refine .of_ok hfirst ?_ (.refl t')
      simp only [Operation.attempt, Operation.refused, Bool.false_eq_true, if_false, hprobe',
        Operation.body, hbody']
      rfl
    · refine .of_probe hfirst ?_
      have hfound' := hfound t' (by rw [ht']; rfl)
      simp [Operation.probe, hfound', hadopted, hyes]

lemma setFileSize_once {f size : Nat}
    (hfirst : (Operation.setFileSize f size).attempt cfg t = .ok (t', reply)) :
    Operation.ExactlyOnce cfg t (.setFileSize f size) t' reply := by
  rcases (Operation.attempt_cases hfirst).2 with ⟨hfound, rfl⟩ | ⟨hprobe, hbody⟩
  · exact .of_probe hfirst hfound
  · obtain ⟨t₁, hset, heq⟩ := ok_of_map hbody
    obtain ⟨rfl, rfl⟩ := Prod.mk.inj heq
    obtain ⟨_, hfence, hset⟩ := ok_of_bind hset
    have ht' : t₁ = t.withSize f size := (Except.ok.inj hset).symm
    have hfile : ∀ g, t₁.data.files.lookup g = (t.data.files.lookup g).map fun row =>
        if g = f then { row with size := size } else row := by
      intro g
      rw [ht']
      exact Table.lookup_adjust _
    cases hrow : t.data.files.lookup f with
    | some row =>
      refine .of_probe hfirst ?_
      simp [Operation.probe, Db.fileSize, hfile, hrow]
    | none =>
      -- there is no row to find the size in, and none to change
      have hprobe' : (Operation.setFileSize f size).probe t₁ = none := by
        simp [Operation.probe, Db.fileSize, hfile, hrow]
      have hfence' : t₁.requireWriteFence f none = .ok () := by
        rw [ht']
        exact hfence
      have hagain : (Operation.setFileSize f size).attempt cfg t₁ =
          .ok (t₁.withSize f size, .done) := by
        simp only [Operation.attempt, Operation.refused, Bool.false_eq_true, if_false, hprobe',
          Operation.body, Tables.setFileSize, hfence']
        rfl
      have halike : Alike (Equiv.refl Nat) t₁ (t₁.withSize f size) := by
        refine ⟨rfl, ⟨fun g => ?_, fun _ => rfl, fun _ _ => rfl⟩, fun _ => rfl,
          fun _ => by simp [Tables.withSize], fun _ => rfl⟩
        simp only [Tables.withSize, Table.lookup_adjust, hfile]
        by_cases hg : g = f
        · subst hg
          simp [hrow]
        · simp [hg]
      exact .of_ok hfirst hagain halike

/-! ## Flushes and holes -/

lemma setData_hash {db : Db} (hwf : t.WellFormed) {o : Nat} {row : Nat × Text}
    (h : (t.setData db).hashes.lookup o = some row) :
    o < t.data.nextObject ∧ (db.objects.lookup o).isSome := by
  simp only [Tables.setData, Table.lookup_keep_key] at h
  split at h
  · rename_i hthere
    exact ⟨hwf.hash o row h, hthere⟩
  · cases h

lemma setData_token {db : Db} (hwf : t.WellFormed) {k o : Nat}
    (h : (t.setData db).dataObjectTokens.lookup k = some o) :
    o < t.data.nextObject ∧ (db.objects.lookup o).isSome := by
  simp only [Tables.setData, Table.lookup_keep, Option.filter_eq_some_iff] at h
  exact ⟨hwf.token k o h.1, h.2⟩

/-- What a flush may not do so that it can be made again: replace the object of the file
while replaced objects are kept, or stage a block both as data and as zeros. -/
def FlushRepeatable (cfg : Config) (t : Tables) (flush : Tables.Flush) : Prop :=
  match t.data.fileDataObjectInfo flush.file with
  | none => True
  | some (_, object) =>
    ¬ (cfg.deferred = true ∧ flush.covers = true) ∧
      (cfg.transport = .copyBinaryStaging →
        StagedAlike flush.blockSize flush.totalBlocks flush.truncatePending flush.rows object.blocks)

instance (cfg : Config) (t : Tables) (flush : Tables.Flush) :
    Decidable (FlushRepeatable cfg t flush) := by
  unfold FlushRepeatable
  split <;> infer_instance

lemma flush_again (hwf : t.WellFormed) {flush : Tables.Flush} (h : FlushRepeatable cfg t flush) :
    ∃ ids : Equiv.Perm Nat, (∀ o < t.data.nextObject, ids o = o) ∧
      SameData ids (flush.apply cfg t.data) (flush.apply cfg (flush.apply cfg t.data)) := by
  cases hcovers : flush.covers with
  | false =>
    refine ⟨Equiv.refl Nat, fun _ _ => rfl, ?_⟩
    rw [flush_eq_editDetached hwf.object hcovers, flush_eq_editDetached ?_ hcovers]
    · refine editDetached_again _ _ _ hwf.object fun o object hinfo b => ?_
      rw [FlushRepeatable, hinfo] at h
      exact lookup_rowsApplied_again h.2 b
    · exact Fresh.editDetached hwf.object _ _
  | true =>
    cases hinfo : t.data.fileDataObjectInfo flush.file with
    | none =>
      have hsame : flush.apply cfg t.data = t.data := by
        unfold Tables.Flush.covers at hcovers
        simp [Tables.Flush.apply, Db.persistFileBlocks, Db.dataObjectWriteTarget, hcovers, hinfo]
      rw [hsame, hsame]
      exact ⟨Equiv.refl Nat, fun _ _ => rfl, .refl _⟩
    | some info =>
      obtain ⟨o, object⟩ := info
      rw [FlushRepeatable, hinfo] at h
      have hdeferred : cfg.deferred = false := by simpa [hcovers] using h.1
      refine ⟨_, fun o' ho' => ?_,
        flush_replaces_again hdeferred hcovers hinfo hwf.object hwf.file⟩
      exact Equiv.swap_apply_of_ne_of_ne (by omega) (by omega)

lemma persistFileBlocks_once (hwf : t.WellFormed) {flush : Tables.Flush}
    (hrepeat : FlushRepeatable cfg t flush)
    (hfirst : (Operation.persistFileBlocks flush fence).attempt cfg t = .ok (t', reply)) :
    Operation.ExactlyOnce cfg t (.persistFileBlocks flush fence) t' reply := by
  obtain ⟨t₁, hpersist, heq⟩ :=
    ok_of_map (show (t.persistFileBlocks cfg flush fence).map _ = _ from hfirst)
  obtain ⟨rfl, rfl⟩ := Prod.mk.inj heq
  obtain ⟨_, hfence, hpersist⟩ := ok_of_bind hpersist
  obtain ⟨_, hquota, hpersist⟩ := ok_of_bind hpersist
  have ht₁ : t₁ = t.setData (flush.apply cfg t.data) := (Except.ok.inj hpersist).symm
  rw [← ht₁] at hquota
  obtain ⟨ids, hids, hsame⟩ := flush_again hwf hrepeat
  have halike : Alike ids t₁ (t₁.setData (flush.apply cfg t₁.data)) := by
    rw [ht₁]
    exact .setData hsame hids (fun _ _ h => setData_hash hwf h) fun _ _ h => setData_token hwf h
  have hfence' : t₁.requireWriteFence flush.file fence = .ok () := by
    rw [ht₁]
    exact hfence
  have hagain : (Operation.persistFileBlocks flush fence).attempt cfg t₁ =
      .ok (t₁.setData (flush.apply cfg t₁.data), .done) := by
    simp only [Operation.attempt, Operation.refused, Bool.false_eq_true, if_false, Operation.probe,
      Operation.body, Tables.persistFileBlocks, hfence']
    simp [bind, Except.bind, halike.enforce hquota, Except.map, pure, Except.pure]
  exact .of_ok hfirst hagain halike

lemma clearHash_data (t : Tables) (f : Nat) : (t.clearHash f).data = t.data := by
  unfold Tables.clearHash
  split <;> rfl

lemma clearHash_token (t : Tables) (f : Nat) :
    (t.clearHash f).dataObjectTokens = t.dataObjectTokens := by
  unfold Tables.clearHash
  split <;> rfl

lemma clearHash_lease (t : Tables) (f : Nat) : (t.clearHash f).writeLeases = t.writeLeases := by
  unfold Tables.clearHash
  split <;> rfl

lemma lookup_clearHash (t : Tables) (f o : Nat) :
    (t.clearHash f).hashes.lookup o =
      if (t.data.files.lookup f).map FileRow.dataObject = some o then none else t.hashes.lookup o := by
  unfold Tables.clearHash
  cases t.data.files.lookup f with
  | none => simp
  | some row =>
    simp only [Table.lookup_erase_eq_ite, Option.map_some, Option.some.injEq]
    grind

lemma Alike.clearHash {f : Nat} (h : Alike (Equiv.refl Nat) t t')
    (hclear : ∀ row, t.data.files.lookup f = some row → t.hashes.lookup row.dataObject = none) :
    Alike (Equiv.refl Nat) t (t'.clearHash f) where
  rest := by
    have hrest := h.rest
    unfold Tables.clearHash
    split
    · exact hrest
    · rw [hrest]
  data := by
    rw [clearHash_data]
    exact h.data
  hash o := by
    have hfile := h.data.file f
    simp only [Equiv.refl_apply] at hfile
    rw [lookup_clearHash, hfile, h.hash]
    cases hrow : t.data.files.lookup f with
    | none => simp
    | some row =>
      simp only [Option.map_some, Option.some.injEq, Equiv.refl_apply]
      split
      · rename_i ho
        rw [← ho, hclear row hrow]
      · rfl
  token k := by
    rw [clearHash_token]
    exact h.token k
  reservation k := by
    have hkept : (t'.clearHash f).reservations = t'.reservations := by
      unfold Tables.clearHash
      split <;> rfl
    rw [hkept]
    exact h.reservation k

lemma fileSize_editDetached {db : Db} (hfresh : Fresh db) {f size : Nat}
    (edit : Table Nat Bytes → Table Nat Bytes) (h : db.fileSize f = some size) :
    (editDetached db f size edit).fileSize f = some size := by
  cases hinfo : db.fileDataObjectInfo f with
  | none =>
    have hnone : editDetached db f size edit = db := by
      simp [editDetached, Db.detachSharedDataObject, hinfo]
    rw [hnone, h]
  | some info =>
    obtain ⟨row, -, -, hobject⟩ := fileDataObjectInfo_cases hinfo
    obtain ⟨own, count, -, hfile, -⟩ :=
      editDetached_info size edit hinfo (hfresh info.1 info.2 hobject).ne
    simp [Db.fileSize, hfile]

lemma punchHoleKeepSize_once (hwf : t.WellFormed) {f bs offset length : Nat}
    (hfirst : (Operation.punchHoleKeepSize f bs offset length fence).attempt cfg t =
      .ok (t', reply)) :
    Operation.ExactlyOnce cfg t (.punchHoleKeepSize f bs offset length fence) t' reply := by
  obtain ⟨hallowed, ⟨hfound, -⟩ | ⟨-, hbody⟩⟩ := Operation.attempt_cases hfirst
  · cases hfound
  obtain ⟨t₁, hpunch, heq⟩ := ok_of_map hbody
  obtain ⟨rfl, rfl⟩ := Prod.mk.inj heq
  obtain ⟨_, hfence, hpunch⟩ := ok_of_bind hpunch
  cases hrow : t.data.files.lookup f with
  | none =>
    simp only [hrow] at hpunch
    cases hpunch
  | some row =>
    simp only [hrow] at hpunch
    by_cases hinside : row.size ≤ offset
    · rw [if_pos hinside] at hpunch
      cases hpunch
      exact .of_unchanged hfirst
    · rw [if_neg hinside] at hpunch
      obtain ⟨_, hquota, hpunch⟩ := ok_of_bind hpunch
      have hsize : t.data.fileSize f = some row.size := by simp [Db.fileSize, hrow]
      have hsame := editDetached_again f row.size
        (Db.punchBlocks bs offset (min (offset + length) row.size)) hwf.object
        fun _ _ _ => lookup_punchBlocks_again _ _ _
      have ht₁ : t₁ = (t.setData (editDetached t.data f row.size
          (Db.punchBlocks bs offset (min (offset + length) row.size)))).clearHash f := by
        rw [← punch_eq_editDetached cfg.deferred bs length hsize hinside]
        exact (Except.ok.inj hpunch).symm
      have hdata : t₁.data = editDetached t.data f row.size
          (Db.punchBlocks bs offset (min (offset + length) row.size)) := by
        rw [ht₁, clearHash_data]
        rfl
      have hsize' : t₁.data.fileSize f = some row.size := by
        rw [hdata]
        exact fileSize_editDetached hwf.object _ hsize
      obtain ⟨row', hrow', hrowSize⟩ := Option.map_eq_some_iff.mp hsize'
      have hfence' : t₁.requireWriteFence f fence = .ok () := by
        rw [Tables.requireWriteFence, ht₁, clearHash_lease]
        exact hfence
      have hquota' : t₁.enforcePayloadQuota cfg = .ok () := by
        rw [ht₁, ← punch_eq_editDetached cfg.deferred bs length hsize hinside]
        exact hquota
      have halike : Alike (Equiv.refl Nat) t₁ ((t₁.setData
          (t₁.data.punchHoleKeepSize cfg.deferred f bs offset length)).clearHash f) := by
        rw [punch_eq_editDetached cfg.deferred bs length hsize' hinside]
        refine .clearHash (.setData (n := t.data.nextObject) ?_ (fun _ _ => rfl) ?_ ?_) ?_
        · rw [hdata]
          exact hsame
        · intro o hash ho
          rw [ht₁, lookup_clearHash] at ho
          rw [hdata]
          split at ho
          · cases ho
          · exact setData_hash hwf ho
        · intro k o ho
          rw [ht₁, clearHash_token] at ho
          rw [hdata]
          exact setData_token hwf ho
        · intro row₂ hrow₂
          rw [ht₁, clearHash_data] at hrow₂
          rw [ht₁, lookup_clearHash, hrow₂]
          simp
      have hagain : (Operation.punchHoleKeepSize f bs offset length fence).attempt cfg t₁ =
          .ok ((t₁.setData (t₁.data.punchHoleKeepSize cfg.deferred f bs offset length)).clearHash f,
            .done) := by
        have hinside' : ¬ row'.size ≤ offset := by rwa [hrowSize]
        simp only [Operation.attempt, hallowed, Bool.false_eq_true, if_false, Operation.probe,
          Operation.body, Tables.punchHoleKeepSize, hfence', hrow', if_neg hinside']
        simp [bind, Except.bind, halike.enforce hquota', Except.map, pure, Except.pure]
      exact .of_ok hfirst hagain halike

/-! ## Reservations -/

/-- The payload and the reservations of the other tokens leave room for the reservation
twice. -/
def ReservationRepeatable (cfg : Config) (t : Tables) (token bytes : Nat) : Prop :=
  bytes = 0 ∨
    match cfg.quota.quotaBytes with
    | none => True
    | some quota =>
      t.data.objects.sumWith (fun _ object => object.blocks.keys.length) * cfg.quota.blockSize +
        t.reservations.sumWith (Quota.Reservation.counted cfg.now (some token)) + 2 * bytes ≤ quota

instance (cfg : Config) (t : Tables) (token bytes : Nat) :
    Decidable (ReservationRepeatable cfg t token bytes) := by
  unfold ReservationRepeatable
  split <;> infer_instance

lemma reserved_eq {rows rows' : Table Nat Quota.Reservation} {now token : Nat}
    {r : Quota.Reservation} (hlive : now < r.expiresAt)
    (hrows : ∀ k, rows'.lookup k =
      if k = token then some r else (rows.lookup k).filter fun row => decide (now < row.expiresAt)) :
    rows'.sumWith (Quota.Reservation.counted now none) =
      r.reservedBytes + rows.sumWith (Quota.Reservation.counted now (some token)) := by
  have hothers : Table.sumWith (rows'.erase token) (Quota.Reservation.counted now none) =
      rows.sumWith (Quota.Reservation.counted now (some token)) := by
    refine Table.sumWith_eq_of_lookup (Equiv.refl Nat) fun k => ?_
    simp only [Equiv.refl_apply, Table.lookup_erase_eq_ite, hrows]
    by_cases hk : k = token
    · subst hk
      cases rows.lookup k <;> simp [Quota.Reservation.counted]
    · cases rows.lookup k with
      | none => simp [hk]
      | some row =>
        by_cases hrow : now < row.expiresAt <;>
          simp [hk, Option.filter, hrow, Quota.Reservation.counted]
  have herase : rows'.sumWith (Quota.Reservation.counted now none) = _ :=
    Table.sumWith_erase (k := token)
  rw [herase, hothers, hrows, if_pos rfl]
  simp [Quota.Reservation.counted, hlive]

lemma reservePayloadCapacity_cases {token bytes : Nat} {answer : Option Nat}
    (h : t.reservePayloadCapacity cfg token bytes = .ok (t', answer)) :
    ((bytes = 0 ∨ cfg.quota.quotaBytes = none) ∧ t' = t) ∨
      ∃ quota, bytes ≠ 0 ∧ cfg.quota.quotaBytes = some quota ∧ answer = some token ∧
        t' = { t.deleteExpired cfg with
          reservations := (t.deleteExpired cfg).reservations.insert token
            ⟨bytes, cfg.now + Quota.reservationSeconds⟩ } := by
  unfold Tables.reservePayloadCapacity at h
  by_cases hbytes : bytes = 0
  · rw [if_pos hbytes] at h
    cases h
    exact .inl ⟨.inl hbytes, rfl⟩
  rw [if_neg hbytes] at h
  cases hquota : cfg.quota.quotaBytes with
  | none =>
    simp only [hquota] at h
    cases h
    exact .inl ⟨.inr rfl, rfl⟩
  | some quota =>
    simp only [hquota] at h
    split at h
    · cases h
    · obtain ⟨ht', rfl⟩ := eq_of_ok h
      exact .inr ⟨quota, hbytes, rfl, rfl, ht'⟩

section Reserved

variable {token bytes : Nat}
  (ht' : t' = { t.deleteExpired cfg with
    reservations := (t.deleteExpired cfg).reservations.insert token
      ⟨bytes, cfg.now + Quota.reservationSeconds⟩ })

include ht'

lemma lookup_reserved (k : Nat) :
    (t'.deleteExpired cfg).reservations.lookup k =
      if k = token then some ⟨bytes, cfg.now + Quota.reservationSeconds⟩
      else (t.reservations.lookup k).filter fun row => decide (cfg.now < row.expiresAt) := by
  simp only [Tables.deleteExpired, Table.lookup_keep, ht', Table.lookup_insert_eq_ite]
  split
  · simp [Option.filter, Quota.reservationSeconds]
  · cases t.reservations.lookup k with
    | none => rfl
    | some r => by_cases hr : cfg.now < r.expiresAt <;> simp [Option.filter, hr]

lemma payloadBytes_reserved : (t'.deleteExpired cfg).persistedAndReservedPayloadBytes cfg =
      t.data.objects.sumWith (fun _ object => object.blocks.keys.length) * cfg.quota.blockSize +
        (bytes + t.reservations.sumWith (Quota.Reservation.counted cfg.now (some token))) := by
  have hdata : (t'.deleteExpired cfg).data = t.data := by rw [ht']; rfl
  have hlive : cfg.now < cfg.now + Quota.reservationSeconds := by simp [Quota.reservationSeconds]
  rw [Tables.persistedAndReservedPayloadBytes, hdata, reserved_eq hlive (lookup_reserved ht')]

end Reserved

lemma reservePayloadCapacity_once {token bytes : Nat}
    (hroom : ReservationRepeatable cfg t token bytes)
    (hfirst : (Operation.reservePayloadCapacity token bytes).attempt cfg t = .ok (t', reply)) :
    Operation.ExactlyOnce cfg t (.reservePayloadCapacity token bytes) t' reply := by
  obtain ⟨answer, hreserve, rfl⟩ :=
    ok_of_map_reply (show (t.reservePayloadCapacity cfg token bytes).map _ = _ from hfirst)
  rcases reservePayloadCapacity_cases hreserve with ⟨-, rfl⟩ | ⟨quota, hbytes, hquota, rfl, ht'⟩
  · exact .of_unchanged hfirst
  simp only [ReservationRepeatable, hbytes, hquota, false_or] at hroom
  have hused : (t'.deleteExpired cfg).persistedAndReservedPayloadBytes cfg + bytes ≤ quota := by
    rw [payloadBytes_reserved ht']
    omega
  have hagain : (Operation.reservePayloadCapacity token bytes).attempt cfg t' =
      .ok ({ t'.deleteExpired cfg with
          reservations := (t'.deleteExpired cfg).reservations.insert token
            ⟨bytes, cfg.now + Quota.reservationSeconds⟩ }, .reservation (some token)) := by
    simp [Operation.attempt, Operation.refused, Operation.probe, Operation.body,
      Tables.reservePayloadCapacity, hbytes, hquota, Nat.not_lt.mpr hused, Except.map]
  refine .of_ok hfirst hagain ⟨rfl, .refl _, fun _ => rfl, fun _ => by simp [Tables.deleteExpired],
    fun k => ?_⟩
  rw [Table.lookup_insert_eq_ite, lookup_reserved ht', ht', Table.lookup_insert_eq_ite,
    Tables.deleteExpired, Table.lookup_keep]
  split <;> rfl

/-- Without the room the second run is refused: it counts the reservation of the first. -/
theorem reservation_counted_twice {token bytes : Nat} (hroom : ¬ ReservationRepeatable cfg t token bytes)
    (hfirst : (Operation.reservePayloadCapacity token bytes).attempt cfg t = .ok (t', reply)) :
    (Operation.reservePayloadCapacity token bytes).afterLostAck cfg t =
      .error .storageQuotaExceeded := by
  obtain ⟨answer, hreserve, rfl⟩ :=
    ok_of_map_reply (show (t.reservePayloadCapacity cfg token bytes).map _ = _ from hfirst)
  rcases reservePayloadCapacity_cases hreserve with ⟨hfree, -⟩ | ⟨quota, hbytes, hquota, rfl, ht'⟩
  · refine absurd ?_ hroom
    rcases hfree with hbytes | hquota
    · exact .inl hbytes
    · simp [ReservationRepeatable, hquota]
  simp only [ReservationRepeatable, hbytes, hquota, false_or] at hroom
  have hused : quota < (t'.deleteExpired cfg).persistedAndReservedPayloadBytes cfg + bytes := by
    rw [payloadBytes_reserved ht']
    omega
  have hagain : (Operation.reservePayloadCapacity token bytes).attempt cfg t' =
      .error .storageQuotaExceeded := by
    simp [Operation.attempt, Operation.refused, Operation.probe, Operation.body,
      Tables.reservePayloadCapacity, hbytes, hquota, hused, Except.map]
  simp [Operation.afterLostAck, hfirst, hagain, Error.isUniqueViolation]

end Fod.Replay
