/-
The sender up to its end.  Between two entries all that it was asked to send
is on the wire, unless an answer has overtaken it.
-/
import QubesUtils.PackTrace

namespace QubesUtils

open Hoare Fifo Process ByteCodec

/-- An answer came in before the end marker was sent. -/
def Overtaken (w : World Packer) : Prop :=
  ∃ entries, Accepted (frames entries) w

def Progress (keys : List (FileHeader × List UInt8)) (w : World Packer) :
    Prop :=
  SentKeys keys w ∨ Overtaken w

theorem Overtaken.grows {α : Type} {program : Pack α} (h : Grows program) :
    Triple Overtaken program (fun _ => Overtaken) Anyhow := by
  rintro w ⟨entries, before, answer, hprefix, hanswer⟩
  refine (h (before ++ answer)).mono (fun _ h => h) (fun _ w' h => ?_)
    (fun _ _ _ => trivial) w hprefix
  exact ⟨entries, before, answer, h, hanswer⟩

section

variable {keys more : List (FileHeader × List UInt8)}

theorem Progress.rule {α : Type} {program : Pack α} (hgrows : Grows program)
    (h : Triple (SentKeys keys) program (fun _ => Progress more) Anyhow) :
    Triple (Progress keys) program (fun _ => Progress more) Anyhow := by
  intro w hw
  rcases hw with hw | hw
  · exact h w hw
  · exact (Overtaken.grows hgrows).post_mono (fun _ _ h => Or.inr h) w hw

/-- The sender does not write. -/
theorem Progress.same {α : Type} {program : Pack α} (hgrows : Grows program)
    (h : ∀ P, Triple (OnStream P) program (fun _ => OnStream P) Anyhow) :
    Triple (Progress keys) program (fun _ => Progress keys) Anyhow := by
  refine Progress.rule hgrows (Triple.exists_pre fun entries => ?_)
  refine Triple.assume (fun _ h => h.1) fun hkeys => ?_
  exact ((h _).pre_mono fun _ h => h.2).post_mono
    fun _ _ h => Or.inl ⟨entries, hkeys, h⟩

theorem waitForResult_progress :
    Triple (Progress keys) (waitForResult false) (fun _ => Progress keys)
      Anyhow := by
  refine Progress.rule (waitForResult_grows false) fun w hw => ?_
  obtain ⟨entries, hkeys, hsent⟩ := hw
  refine (waitForResult_accepted hsent).post_mono (fun _ w' h => ?_) w rfl
  rcases h with h | h
  · exact Or.inl ⟨entries, hkeys, h.2⟩
  · exact Or.inr ⟨entries, h.1⟩

theorem singleFileProcessor_progress (filename : CString) (st : Stat)
    (data : List UInt8) (hshort : filename.bytes.length < INT_MAX) :
    Triple (Progress keys) (singleFileProcessor false filename st data)
      (fun _ => Progress (keys ++ singleKeys filename st)) Anyhow := by
  refine Progress.rule (singleFileProcessor_grows false filename st data) ?_
  refine (sendByType_sent false filename st data hshort).bind fun _ => ?_
  exact waitForResult_progress.pre_mono fun _ h => Or.inl h

theorem attempt_progress :
    Triple (Progress keys) attempt (fun _ => Progress keys) Anyhow :=
  Progress.same attempt_grows fun _ =>
    attempt_stream.post_mono fun _ _ h => h.1

/-- A name that has been looked up is not too long. -/
theorem lstat_progress (file : CString) :
    Triple (Progress keys) (lstat file)
      (fun result w => Progress keys w ∧
        (result ≠ none → file.bytes.length < INT_MAX)) Anyhow := by
  refine .ite (fun _ => ?_) fun hshort => ?_
  · have hset : Triple (Progress keys)
        (setErrno (UInt32.ofNat ENAMETOOLONG) : Pack Unit)
        (fun _ => Progress keys) Anyhow :=
      Progress.same (fun _ => setErrno_stable _) fun _ =>
        (setErrno_stream _).post_mono fun _ _ h => h.1
    exact hset.bind fun _ => .ret fun _ h => ⟨h, fun h => absurd rfl h⟩
  · exact attempt_progress.post_mono fun _ _ h => ⟨h, fun _ => by omega⟩

theorem opendir_progress (file : CString) :
    Triple (Progress keys) (opendir file) (fun _ => Progress keys) Anyhow := by
  refine attempt_progress.bind fun outcome => ?_
  cases outcome with
  | none => exact .throw fun _ _ => trivial
  | some _ => exact .ret fun _ h => h

theorem asprintf_progress :
    Triple (Progress keys) asprintf (fun _ => Progress keys) Anyhow := by
  refine attempt_progress.bind fun outcome => ?_
  cases outcome with
  | none => exact .throw fun _ _ => trivial
  | some _ => exact .ret fun _ h => h

end

mutual

theorem doFsWalk_progress (ignoreSymlinks : Bool) (file : CString) :
    ∀ source keys, Triple (Progress keys)
      (doFsWalk false ignoreSymlinks file source)
      (fun _ => Progress (keys ++ walkKeys ignoreSymlinks file source)) Anyhow
  | .node _ st data children => by
      intro keys
      rw [doFsWalk, walkKeys]
      refine (lstat_progress file).bind fun result => ?_
      cases result with
      | none => exact .throw fun _ _ => trivial
      | some _ =>
          refine Triple.assume (fun _ h => h.2 (by simp)) fun hshort => ?_
          refine Triple.pre_mono ?_ fun _ h => h.1
          refine .ite (fun hskip => ?_) fun hskip => ?_
          · rw [if_pos hskip, List.append_nil]
            exact .ret fun _ h => h
          rw [if_neg hskip]
          refine (singleFileProcessor_progress file st data hshort).bind
            fun _ => ?_
          refine .ite (fun hdir => ?_) fun hdir => ?_
          · rw [if_pos hdir, ← List.append_assoc, ← List.append_assoc]
            refine (opendir_progress file).bind fun _ => ?_
            refine (walkEntries_progress ignoreSymlinks file children
              _).bind fun _ => ?_
            exact singleFileProcessor_progress file st data hshort
          · rw [if_neg hdir]
            exact .ret fun _ h => h

theorem walkEntries_progress (ignoreSymlinks : Bool) (file : CString) :
    ∀ sources keys, Triple (Progress keys)
      (walkEntries false ignoreSymlinks file sources)
      (fun _ => Progress (keys ++ childrenKeys ignoreSymlinks file sources))
      Anyhow
  | [] => by
      intro keys
      rw [walkEntries, childrenKeys, List.append_nil]
      exact .ret fun _ h => h
  | entry :: rest => by
      intro keys
      rw [walkEntries, childrenKeys]
      refine .ite (fun hskip => ?_) fun hskip => ?_
      · rw [if_pos hskip]
        exact walkEntries_progress ignoreSymlinks file rest keys
      · rw [if_neg hskip, ← List.append_assoc]
        refine asprintf_progress.bind fun _ => ?_
        refine (doFsWalk_progress ignoreSymlinks _ entry keys).bind
          fun _ => ?_
        exact walkEntries_progress ignoreSymlinks file rest _

end

section

variable {keys : List (FileHeader × List UInt8)}

end

end QubesUtils
