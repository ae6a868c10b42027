import Mathlib.Data.List.Count
import Pipework.Proofs.Remembered

/-!
# Which prompts have the same fingerprint

The bytes of a prompt are those of its fields with a zero between them. A field may have zeros of
its own, and then the bytes do not tell where it ends: two prompts can have the same bytes though
nothing but their roles agrees. If role and name have as many zero characters in one prompt as in
the other, say none, the bytes determine the fields. A digest cannot tell more than the bytes do,
and that it tells as much is asked of the bytes in question alone, since no digest of bounded length
does so of all.
-/

namespace Pipework

def Sha256.Collide (a b : List UInt8) : Prop := a ≠ b ∧ Sha256.hex a = Sha256.hex b

instance (a b : List UInt8) : Decidable (Sha256.Collide a b) :=
  inferInstanceAs (Decidable (_ ∧ _))

theorem append_cons_inj_of_count {α : Type} [DecidableEq α] {a : α} {l l' r r' : List α}
    (h : l ++ a :: r = l' ++ a :: r') (hcount : l.count a = l'.count a) : l = l' ∧ r = r' := by
  induction l generalizing l' with
  | nil =>
    cases l' with
    | nil => exact ⟨rfl, (List.cons.inj h).2⟩
    | cons b l' =>
      obtain ⟨rfl, -⟩ := List.cons.inj h
      simp at hcount
  | cons b l ih =>
    cases l' with
    | nil =>
      obtain ⟨rfl, -⟩ := List.cons.inj h
      simp at hcount
    | cons c l' =>
      obtain ⟨rfl, htail⟩ := List.cons.inj h
      rw [List.count_cons, List.count_cons, Nat.add_right_cancel_iff] at hcount
      obtain ⟨rfl, rfl⟩ := ih htail hcount
      exact ⟨rfl, rfl⟩

/-- Of all characters the zero character alone is written with a zero byte. -/
theorem count_zero_encoded (c : Char) :
    (String.utf8EncodeChar c).count 0 = if c = '\x00' then 1 else 0 := by
  by_cases hc : c = '\x00'
  · subst hc
    rfl
  · rw [if_neg hc, List.count_eq_zero]
    have hpos : c.toNat ≠ 0 := by
      intro h
      exact hc (Char.ext (UInt32.toNat_inj.mp h))
    have hbyte : ∀ n, 0 < n % 256 → (0 : UInt8) ≠ UInt8.ofNat n := by
      intro n hn h
      have hzero : n % 256 = 0 := by simpa using (congrArg UInt8.toNat h).symm
      omega
    simp only [String.utf8EncodeChar, show c.val.toNat = c.toNat from rfl]
    -- one to four bytes; every byte of more than one has its highest bit set
    split
    · simp only [List.mem_singleton]
      exact hbyte _ (by omega)
    · split
      · simp only [List.mem_cons, List.not_mem_nil, or_false, not_or]
        exact ⟨hbyte _ (by omega), hbyte _ (by omega)⟩
      · split
        · simp only [List.mem_cons, List.not_mem_nil, or_false, not_or]
          exact ⟨hbyte _ (by omega), hbyte _ (by omega), hbyte _ (by omega)⟩
        · simp only [List.mem_cons, List.not_mem_nil, or_false, not_or]
          exact ⟨hbyte _ (by omega), hbyte _ (by omega), hbyte _ (by omega), hbyte _ (by omega)⟩

theorem count_zero_bytes (s : String) : s.toUTF8.data.toList.count 0 = s.toList.count '\x00' := by
  have hbytes : s.toUTF8.data.toList = s.toList.flatMap String.utf8EncodeChar := by
    rw [String.toUTF8, ← String.utf8Encode_toList, List.utf8Encode, List.data_toByteArray]
  rw [hbytes]
  induction s.toList with
  | nil => rfl
  | cons c cs ih =>
    rw [List.flatMap_cons, List.count_append, ih, count_zero_encoded, List.count_cons]
    by_cases hc : c = '\x00' <;> simp [hc, Nat.add_comm]

theorem bytes_inj {s t : String} (h : s.toUTF8.data.toList = t.toUTF8.data.toList) : s = t :=
  String.toByteArray_inj.mp (ByteArray.ext (Array.toList_inj.mp h))

namespace Prompt

def Same (p q : Prompt) : Prop :=
  p.role = q.role ∧ p.name.getD "" = q.name.getD "" ∧ p.content = q.content

instance (p q : Prompt) : Decidable (p.Same q) := inferInstanceAs (Decidable (_ ∧ _ ∧ _))

def zeros (p : Prompt) : Nat × Nat :=
  (p.role.toList.count '\x00', (p.name.getD "").toList.count '\x00')

theorem Same.fingerprint_eq {p q : Prompt} (h : p.Same q) : p.fingerprint = q.fingerprint := by
  obtain ⟨hrole, hname, hcontent⟩ := h
  rw [fingerprint, fingerprint, bytes, bytes, hrole, hname, hcontent]

theorem same_of_bytes {p q : Prompt} (h : p.bytes = q.bytes) (hz : p.zeros = q.zeros) :
    p.Same q := by
  obtain ⟨hrole, hname⟩ := Prod.mk.inj hz
  simp only [bytes, List.append_assoc, List.cons_append] at h
  rw [← count_zero_bytes, ← count_zero_bytes] at hrole hname
  obtain ⟨hrole, h⟩ := append_cons_inj_of_count h hrole
  obtain ⟨hname, hcontent⟩ := append_cons_inj_of_count h hname
  exact ⟨bytes_inj hrole, bytes_inj hname, bytes_inj hcontent⟩

theorem same_of_fingerprint {p q : Prompt} (hsep : ¬ Sha256.Collide p.bytes q.bytes)
    (hz : p.zeros = q.zeros) (h : p.fingerprint = q.fingerprint) : p.Same q := by
  apply same_of_bytes _ hz
  by_contra hne
  exact hsep ⟨hne, h⟩

end Prompt

namespace PromptMemory

open Prompt (fingerprint)

theorem exists_mem_merged (m : PromptMemory) (key : String) {ps : List Prompt} {p : Prompt}
    (hp : p ∈ ps) : ∃ q ∈ m.merged key ps,
      q ∈ (Keyed.get? m key).getD [] ++ ps ∧ q.fingerprint = p.fingerprint := by
  rw [merged_eq]
  by_cases hheld : p.fingerprint ∈ ((Keyed.get? m key).getD []).map fingerprint
  · obtain ⟨q, hq, hqp⟩ := List.mem_map.mp hheld
    exact ⟨q, List.mem_append_left _ hq, List.mem_append_left _ hq, hqp⟩
  · obtain ⟨q, hq, hqp⟩ := Prompt.mem_firsts_of_mem hp
    refine ⟨q, List.mem_append_right _ ?_, ?_, hqp⟩
    · exact List.mem_filter.mpr ⟨hq, by simpa [hqp] using hheld⟩
    · exact List.mem_append_right _ (Prompt.mem_of_mem_firsts hq)

end PromptMemory

/-- Equal prompts have equal fingerprints. Where the digest tells their bytes apart and their roles
and names have equally many zero characters, other prompts have other fingerprints. So a merge
keeps each prompt of a batch, unless what it meets has other zeros in role or name. -/
theorem Prompt.fingerprints_separate (p q : Prompt) :
    (p.Same q → p.fingerprint = q.fingerprint) ∧
    (¬ Sha256.Collide p.bytes q.bytes → p.zeros = q.zeros → p.fingerprint = q.fingerprint →
      p.Same q) ∧
    (∀ (m : PromptMemory) (key : String) (ps : List Prompt), p ∈ ps →
      (∀ r ∈ (Keyed.get? m key).getD [] ++ ps,
        ¬ Sha256.Collide p.bytes r.bytes ∧ p.zeros = r.zeros) →
      ∃ r ∈ m.merged key ps, p.Same r) := by
  refine ⟨fun h => h.fingerprint_eq, same_of_fingerprint, ?_⟩
  intro m key ps hp h
  obtain ⟨r, hmerged, hr, hrp⟩ := m.exists_mem_merged key hp
  obtain ⟨hsep, hz⟩ := h r hr
  exact ⟨r, hmerged, same_of_fingerprint hsep hz hrp.symm⟩

def greeting : Prompt := ⟨"user", none, "hello"⟩

def namelessGreeting : Prompt := ⟨"user", some "", "hello"⟩

def otherGreeting : Prompt := ⟨"user", none, "hullo"⟩

theorem separate_greetings :
    (¬ Sha256.Collide greeting.bytes otherGreeting.bytes ∧
      greeting.zeros = otherGreeting.zeros ∧ ¬ greeting.Same otherGreeting ∧
      greeting.fingerprint ≠ otherGreeting.fingerprint) ∧
    ((∀ q ∈ [greeting] ++ [namelessGreeting, otherGreeting],
        ¬ Sha256.Collide namelessGreeting.bytes q.bytes ∧ namelessGreeting.zeros = q.zeros) ∧
      ∃ q ∈ PromptMemory.merged [("k", [greeting])] "k" [namelessGreeting, otherGreeting],
        namelessGreeting.Same q) := by
  have hapart : ¬ Sha256.Collide greeting.bytes otherGreeting.bytes := by decide +kernel
  have hzeros : greeting.zeros = otherGreeting.zeros := by decide +kernel
  have hother : ¬ greeting.Same otherGreeting := by decide
  have hbatch : ∀ q ∈ [greeting] ++ [namelessGreeting, otherGreeting],
      ¬ Sha256.Collide namelessGreeting.bytes q.bytes ∧ namelessGreeting.zeros = q.zeros := by
    decide +kernel
  refine ⟨⟨hapart, hzeros, hother, fun h => ?_⟩, hbatch, ?_⟩
  · exact hother ((Prompt.fingerprints_separate greeting otherGreeting).2.1 hapart hzeros h)
  · exact (Prompt.fingerprints_separate namelessGreeting greeting).2.2 [("k", [greeting])] "k" _
      List.mem_cons_self hbatch

def zeroInName : Prompt := ⟨"user", some "a\x00b", "c"⟩

def zeroInContent : Prompt := ⟨"user", some "a", "b\x00c"⟩

/-- Two prompts with the same bytes, of which a merge keeps the first alone. -/
theorem clash_zeroInName :
    ¬ zeroInName.Same zeroInContent ∧ zeroInName.bytes = zeroInContent.bytes ∧
      zeroInName.fingerprint = zeroInContent.fingerprint ∧
      ∀ q ∈ PromptMemory.merged [] "k" [zeroInName, zeroInContent], ¬ zeroInContent.Same q := by
  decide +kernel

end Pipework
