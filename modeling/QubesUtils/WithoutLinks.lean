/-
The walk that ignores symbolic links: it sends what it would send if there were
none in the tree.
-/
import QubesUtils.RoundTrip

namespace QubesUtils

open Hoare Process ByteCodec FileSystem

/-! The tree without links. -/

def Source.isLink : Source → Bool
  | .node _ st _ _ => sIsLnk st.mode

mutual

def dropLinks : Source → Source
  | .node name st data children =>
      .node name st data (dropLinksOf children)

def dropLinksOf : List Source → List Source
  | [] => []
  | entry :: rest =>
      if entry.isLink then dropLinksOf rest
      else dropLinks entry :: dropLinksOf rest

end

theorem dropLinks_name (source : Source) :
    (dropLinks source).name = source.name := by
  cases source
  rw [dropLinks]
  rfl

mutual

/-- What can be sent when links are ignored; of a link the path is looked
up. -/
def Walkable (file : CString) : Source → Prop
  | .node _ st data children =>
      if sIsLnk st.mode then file.bytes.length < INT_MAX
      else Readable file st data ∧
        (sIsDir st.mode = true → WalkableAll file children)

def WalkableAll (file : CString) : List Source → Prop
  | [] => True
  | entry :: rest =>
      (skipped entry.name = false →
        Walkable (pathUnder file entry.name) entry) ∧
      WalkableAll file rest

end

section

variable (ignoreQuotaError : Bool) {E : Exit → World Packer → Prop}

theorem lstat_found {sent : List UInt8} {filename : CString}
    (h : filename.bytes.length < INT_MAX) :
    Triple (Unanswered sent) (lstat filename)
      (fun result w => result ≠ none ∧ Unanswered sent w) E := by
  refine .ite (fun hlong => absurd hlong (Nat.not_le.mpr h)) fun _ => ?_
  exact Triple.exists_pre fun file => attempt_sending.post_mono
    fun _ _ h => ⟨h.1, file, h.2⟩

mutual

theorem doFsWalk_withoutLinks (file : CString) : ∀ (source : Source)
    (sent : List UInt8), Walkable file source →
    Triple (Unanswered sent) (doFsWalk ignoreQuotaError true file source)
      (fun _ => Unanswered (sent ++ if source.isLink then []
        else walkBytes file (dropLinks source))) E
  | .node name st data children => by
      intro sent h
      rw [Walkable] at h
      rw [doFsWalk, dropLinks, walkBytes, Source.isLink]
      have hfound : file.bytes.length < INT_MAX := by
        split at h
        · exact h
        · exact h.1.lt_max
      refine (lstat_found hfound).bind fun result => ?_
      cases result with
      | none =>
          exact Triple.assume (fun _ h => h.1) fun hne => absurd rfl hne
      | some _ =>
          refine Triple.pre_mono ?_ fun _ h => h.2
          by_cases hlink : sIsLnk st.mode = true
          · rw [if_pos ⟨hlink, rfl⟩, if_pos hlink, List.append_nil]
            exact .ret fun _ h => h
          rw [if_neg hlink] at h
          rw [if_neg (fun hboth => hlink hboth.1), if_neg hlink]
          refine (singleFileProcessor_sending ignoreQuotaError h.1).bind
            fun _ => ?_
          refine .ite (fun hdir => ?_) fun hdir => ?_
          · rw [if_pos hdir, ← List.append_assoc, ← List.append_assoc]
            exact opendir_sending.bind fun _ =>
              (walkEntries_withoutLinks file children _ (h.2 hdir)).bind
                fun _ => singleFileProcessor_sending ignoreQuotaError h.1
          · rw [if_neg hdir]
            exact .ret fun _ h => h

theorem walkEntries_withoutLinks (file : CString) : ∀ (sources : List Source)
    (sent : List UInt8), WalkableAll file sources →
    Triple (Unanswered sent) (walkEntries ignoreQuotaError true file sources)
      (fun _ => Unanswered
        (sent ++ childrenBytes file (dropLinksOf sources))) E
  | [] => by
      intro sent h
      rw [walkEntries, dropLinksOf, childrenBytes, List.append_nil]
      exact .ret fun _ h => h
  | entry :: rest => by
      intro sent h
      rw [WalkableAll] at h
      rw [walkEntries, dropLinksOf]
      have hrest := fun sent => walkEntries_withoutLinks file rest sent h.2
      refine .ite (fun hskip => ?_) fun hskip => ?_
      · refine (hrest sent).post_mono fun _ w hw => ?_
        by_cases hlink : entry.isLink = true
        · rw [if_pos hlink]
          exact hw
        · rw [if_neg hlink, childrenBytes, dropLinks_name, if_pos hskip]
          exact hw
      · have hentry := doFsWalk_withoutLinks (pathUnder file entry.name) entry
          sent (h.1 (Bool.eq_false_iff.mpr hskip))
        refine asprintf_sending.bind fun _ => hentry.bind fun _ => ?_
        by_cases hlink : entry.isLink = true
        · rw [if_pos hlink, if_pos hlink, List.append_nil]
          exact hrest sent
        · rw [if_neg hlink, if_neg hlink, childrenBytes, dropLinks_name,
            if_neg hskip, ← List.append_assoc]
          exact hrest _

end

/-- What `qfile_pack_init`, `do_fs_walk` without links and the first half of
`notify_end_and_wait_for_result` send. -/
def sendWithoutLinks (root : CString) (source : Source) : Pack Unit := do
  qfilePackInit
  doFsWalk ignoreQuotaError true root source
  notifyEnd

/-- Links are left out: the bytes are those of the tree without them, and so
is the tree that is made. -/
theorem transfer_withoutLinks {limits : Limits} (hlimits : limits.Unlimited)
    {root : CString} {source : Source} (hroot : slash ∉ root.bytes)
    (hlink : source.isLink = false) (hwalk : Walkable root source)
    (htree : Transferable limits.table root (dropLinks source))
    {sender : World Packer} (hsender : NothingSent sender)
    {receiver : World Unpacker} (hreceiver : Awaits root receiver) :
    ∃ sent, (sendWithoutLinks ignoreQuotaError root source).run sender =
        .ok () sent ∧
      (∃ plain, (sendTree ignoreQuotaError root (dropLinks source)).run
          sender = .ok () plain ∧
        pipes.sentBy sent.trace = pipes.sentBy plain.trace) ∧
      ∃ after, (doUnpack limits).run
          { receiver with stdin := pipes.sentBy sent.trace } = .ok 0 after ∧
        Transferred ignoreQuotaError root (dropLinks source) sent receiver
          after := by
  have hsend : Triple NothingSent
      (sendWithoutLinks ignoreQuotaError root source)
      (fun _ => AllSent (treeBytes root (dropLinks source)))
      fun _ _ => False := by
    refine qfilePackInit_sending.bind fun _ => ?_
    refine (doFsWalk_withoutLinks ignoreQuotaError root source []
      hwalk).bind fun _ => ?_
    rw [hlink, List.nil_append]
    exact notifyEnd_sending
  obtain ⟨_, sent, hrun, hsent⟩ := hsend.exists_ok hsender
  obtain ⟨_, plain, hplain, hsame⟩ := (sendTree_sending ignoreQuotaError
    (htree.readable root (dropLinks source))).exists_ok hsender
  exact ⟨sent, hrun, ⟨plain, hplain, hsent.sent.trans hsame.sent.symm⟩,
    hsent.transferred hlimits ignoreQuotaError hroot htree hreceiver⟩

end

/-- The directory `a` with the file `a/b` only. -/
theorem dropLinks_smallTree : dropLinks smallTree =
    .node ⟨[0x61], by decide⟩ ⟨0x41ED, 0, ⟨1, 2⟩, ⟨3, 4⟩, by decide⟩ []
      [.node ⟨[0x62], by decide⟩ ⟨0x81A4, 2, ⟨5, 6⟩, ⟨7, 8⟩, by decide⟩
        [0x68, 0x69] []] := by
  rfl

theorem smallTree_walkable : Walkable ⟨[0x61], by decide⟩ smallTree := by
  refine ⟨⟨by decide, by decide, by decide⟩, fun _ => ⟨fun _ => ?_,
    fun _ => ?_, trivial⟩⟩
  · exact ⟨⟨by decide, by decide, by decide⟩, fun h => by cases h⟩
  · change (pathUnder _ _).bytes.length < INT_MAX
    decide

theorem dropLinks_smallTree_transferable :
    Transferable committedTable ⟨[0x61], by decide⟩ (dropLinks smallTree) := by
  rw [dropLinks_smallTree]
  refine ⟨⟨⟨by decide, by decide, by decide⟩, by decide, by decide, by decide,
    fun _ => by decide +kernel, fun h => (by cases h), by decide⟩,
    fun _ => ⟨?_, ?_⟩⟩
  · simp [DistinctNames]
  refine ⟨fun _ => ⟨by decide, ?_⟩, trivial⟩
  exact ⟨⟨⟨by decide, by decide, by decide⟩, by decide, by decide,
    by decide, fun _ => by decide +kernel, fun h => (by cases h),
    by decide⟩, fun h => by cases h⟩

theorem transfer_withoutLinks_smallTree :
    ∃ sent, (sendWithoutLinks false ⟨[0x61], by decide⟩ smallTree).run
        (freshSender [] []) = .ok () sent ∧
      (∃ plain, (sendTree false ⟨[0x61], by decide⟩ (dropLinks smallTree)).run
          (freshSender [] []) = .ok () plain ∧
        pipes.sentBy sent.trace = pipes.sentBy plain.trace) ∧
      ∃ after, (doUnpack noLimits).run
          { freshWorld [] true with stdin := pipes.sentBy sent.trace } =
            .ok 0 after ∧
        Transferred false ⟨[0x61], by decide⟩ (dropLinks smallTree) sent
          (freshWorld [] true) after :=
  transfer_withoutLinks false ⟨rfl, rfl⟩ (by decide) rfl smallTree_walkable
    dropLinks_smallTree_transferable ⟨rfl, rfl, fun _ h => by cases h⟩
    ⟨rfl, fun _ h => (by cases h), rfl, rfl⟩

end QubesUtils
