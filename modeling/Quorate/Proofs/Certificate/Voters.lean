import Quorate.Certificate
import Quorate.Proofs.AddedPositions
import Quorate.Proofs.Key.Aggregate
import Quorate.Proofs.ValidatorSet.Construction

/-!
# Votes that make a certificate

Votes are refused because of the first of them that is by a stranger or by somebody who has voted before it.
The record of who has voted is the bitmap that is being filled: after votes with which nothing is wrong it
marks exactly their voters.
-/

namespace Quorate

namespace Certificate

variable {set : ValidatorSet} {votes before after others : List Vote} {v : Vote} {m : SignerBitmap} {i : Nat}

/-- All voters are validators, and none votes twice. -/
structure EachOnce (set : ValidatorSet) (votes : List Vote) : Prop where
  known : ∀ v ∈ votes, set.contains v.address = true
  distinct : (votes.map Vote.address).Nodup

/-- The first vote that is by a stranger or by somebody who has voted before it is to blame. -/
inductive Blamed (set : ValidatorSet) (votes : List Vote) : CertificateError → Prop
  | stranger {before : List Vote} {v : Vote} {after : List Vote} (split : votes = before ++ v :: after)
      (fine : EachOnce set before) (unknown : set.contains v.address = false) :
    Blamed set votes (.unknownSigner v.address)
  | repeated {before : List Vote} {v : Vote} {after : List Vote} (split : votes = before ++ v :: after)
      (fine : EachOnce set before) (again : v.address ∈ before.map Vote.address) :
    Blamed set votes (.duplicateSigner v.address)

theorem EachOnce.tail (h : EachOnce set (v :: votes)) : EachOnce set votes :=
  ⟨fun w hw => h.known w (List.mem_cons_of_mem v hw), (List.nodup_cons.1 h.distinct).2⟩

theorem EachOnce.append_singleton (h : EachOnce set votes) (known : set.contains v.address = true)
    (fresh : v.address ∉ votes.map Vote.address) : EachOnce set (votes ++ [v]) := by
  constructor
  · intro w hw
    rcases List.mem_append.1 hw with hw | hw
    · exact h.known w hw
    · rw [List.mem_singleton.1 hw]
      exact known
  · rw [List.map_append, List.map_singleton, List.nodup_append]
    refine ⟨h.distinct, List.nodup_singleton _, ?_⟩
    rintro x hx y hy rfl
    rw [List.mem_singleton.1 hy] at hx
    exact fresh hx

theorem eachOnce_or_blamed (set : ValidatorSet) (votes : List Vote) :
    EachOnce set votes ∨ ∃ cause, Blamed set votes cause := by
  -- From the end: the last vote matters only if nothing is wrong with those before it.
  induction votes using List.reverseRecOn with
  | nil => exact .inl ⟨fun _ h => absurd h List.not_mem_nil, List.nodup_nil⟩
  | append_singleton votes v ih =>
    rcases ih with hfine | ⟨_, hblamed⟩
    · cases hknown : set.contains v.address with
      | false => exact .inr ⟨_, .stranger rfl hfine hknown⟩
      | true =>
        by_cases hagain : v.address ∈ votes.map Vote.address
        · exact .inr ⟨_, .repeated rfl hfine hagain⟩
        · exact .inl (hfine.append_singleton hknown hagain)
    · right
      cases hblamed with
      | stranger split fine unknown =>
        exact ⟨_, .stranger (by rw [split, List.append_assoc, List.cons_append]) fine unknown⟩
      | repeated split fine again =>
        exact ⟨_, .repeated (by rw [split, List.append_assoc, List.cons_append]) fine again⟩

/-- The positions of the voters, in the order of the votes. -/
def positionsOf (set : ValidatorSet) (votes : List Vote) : List Nat :=
  votes.filterMap fun v => set.indexOf? v.address

theorem mem_positionsOf : i ∈ positionsOf set votes ↔ ∃ v ∈ votes, set.indexOf? v.address = some i :=
  List.mem_filterMap

theorem positionsOf_cons (h : set.indexOf? v.address = some i) :
    positionsOf set (v :: votes) = i :: positionsOf set votes :=
  List.filterMap_cons_some h

theorem EachOnce.nodup_positionsOf (h : EachOnce set votes) : (positionsOf set votes).Nodup := by
  have hpositions : positionsOf set votes = (votes.map Vote.address).filterMap set.indexOf? := by
    rw [positionsOf, List.filterMap_map]
    rfl
  rw [hpositions]
  exact h.distinct.filterMap fun _ _ _ hx hy => ValidatorSet.indexOf?_injective hx hy

/-- As long as nothing is wrong, one vote after the other is marked. -/
theorem markVoters_append (h : EachOnce set before)
    (fresh : ∀ i ∈ positionsOf set before, m.contains i = false) :
    markVoters set ((before ++ after).map Vote.address) m =
      markVoters set (after.map Vote.address) (m.insertAll (positionsOf set before)) := by
  induction before generalizing m with
  | nil => rfl
  | cons v rest ih =>
    obtain ⟨i, hi⟩ := ValidatorSet.contains_iff_indexOf?.1 (h.known v List.mem_cons_self)
    rw [positionsOf_cons hi] at fresh ⊢
    have hmark : m.contains i = false := fresh i List.mem_cons_self
    rw [List.cons_append, List.map_cons, markVoters, hi]
    simp only [hmark, Bool.false_eq_true, if_false]
    refine ih h.tail fun j hj => ?_
    -- Nobody in the rest has the voter's position.
    have hij : i ≠ j := by
      rintro rfl
      exact (List.nodup_cons.1 (positionsOf_cons hi ▸ h.nodup_positionsOf)).1 hj
    rw [SignerBitmap.contains_insert, fresh j (List.mem_cons_of_mem _ hj), decide_eq_false hij]
    rfl

/-- The bitmap with the positions of the voters. -/
def marked (set : ValidatorSet) (votes : List Vote) : SignerBitmap :=
  (SignerBitmap.ofSize set.size).insertAll (positionsOf set votes)

theorem markVoters_ofSize_append (h : EachOnce set before) :
    markVoters set ((before ++ after).map Vote.address) (.ofSize set.size) =
      markVoters set (after.map Vote.address) (marked set before) :=
  markVoters_append h fun i _ => SignerBitmap.contains_ofSize _ i

theorem contains_marked :
    (marked set votes).contains i = true ↔ ∃ v ∈ votes, set.indexOf? v.address = some i := by
  rw [marked, SignerBitmap.contains_insertAll, SignerBitmap.contains_ofSize, mem_positionsOf]
  exact or_iff_left Bool.false_ne_true

theorem Blamed.markVoters_eq {cause : CertificateError} (h : Blamed set votes cause) :
    markVoters set (votes.map Vote.address) (.ofSize set.size) = .error cause := by
  cases h with
  | stranger split fine unknown =>
    rw [split, markVoters_ofSize_append fine, List.map_cons, markVoters,
      ValidatorSet.indexOf?_eq_none_of_not_contains unknown]
  | @repeated before v after split fine again =>
    obtain ⟨w, hw, haddress⟩ := List.mem_map.1 again
    obtain ⟨i, hi⟩ := ValidatorSet.contains_iff_indexOf?.1 (haddress ▸ fine.known w hw)
    have hmark : (marked set before).contains i = true := contains_marked.2 ⟨w, hw, haddress ▸ hi⟩
    rw [split, markVoters_ofSize_append fine, List.map_cons, markVoters, hi]
    simp only [hmark, if_true]

theorem EachOnce.markVoters_eq (h : EachOnce set votes) :
    markVoters set (votes.map Vote.address) (.ofSize set.size) = .ok (marked set votes) := by
  have hrun : markVoters set ((votes ++ []).map Vote.address) (.ofSize set.size) = .ok (marked set votes) :=
    markVoters_ofSize_append h
  rwa [List.append_nil] at hrun

/-- The certificate of votes with which nothing is wrong. -/
def summed (set : ValidatorSet) (votes : List Vote) : Certificate where
  signature := ⟨Weierstrass.Point.sum ((votes.map Vote.signature).map Signature.point)⟩
  bitmap := marked set votes

theorem aggregate_eq_summed (set : ValidatorSet) (hne : votes ≠ []) :
    Signature.aggregate (votes.map Vote.signature) = .ok (summed set votes).signature :=
  Signature.aggregate_eq_ok (mt List.map_eq_nil_iff.1 hne)

theorem ofVotes_nil : ofVotes set [] = .error .noSigners :=
  rfl

theorem ofVotes_of_ne_nil (hne : votes ≠ []) :
    ofVotes set votes =
      (markVoters set (votes.map Vote.address) (.ofSize set.size)).map fun bitmap =>
        ⟨(summed set votes).signature, bitmap⟩ := by
  rw [ofVotes, if_neg (by rwa [List.isEmpty_iff]), aggregate_eq_summed set hne]
  cases markVoters set (votes.map Vote.address) (.ofSize set.size) <;> rfl

theorem Blamed.ne_nil {cause : CertificateError} (h : Blamed set votes cause) : votes ≠ [] := by
  rintro rfl
  cases h with
  | stranger split => simp at split
  | repeated split => simp at split

theorem Blamed.ofVotes_eq {cause : CertificateError} (h : Blamed set votes cause) :
    ofVotes set votes = .error cause := by
  rw [ofVotes_of_ne_nil h.ne_nil, h.markVoters_eq]
  rfl

theorem EachOnce.ofVotes_eq (h : EachOnce set votes) (hne : votes ≠ []) :
    ofVotes set votes = .ok (summed set votes) := by
  rw [ofVotes_of_ne_nil hne, h.markVoters_eq]
  rfl

theorem ofVotes_cases (set : ValidatorSet) (votes : List Vote) :
    (votes = [] ∧ ofVotes set votes = .error .noSigners) ∨
    (∃ cause, Blamed set votes cause ∧ ofVotes set votes = .error cause) ∨
    (votes ≠ [] ∧ EachOnce set votes ∧ ofVotes set votes = .ok (summed set votes)) := by
  by_cases hne : votes = []
  · exact .inl ⟨hne, hne ▸ ofVotes_nil⟩
  · right
    rcases eachOnce_or_blamed set votes with hfine | ⟨cause, hblamed⟩
    · exact .inr ⟨hne, hfine, hfine.ofVotes_eq hne⟩
    · exact .inl ⟨cause, hblamed, hblamed.ofVotes_eq⟩

theorem ofVotes_eq_ok_iff {c : Certificate} :
    ofVotes set votes = .ok c ↔ votes ≠ [] ∧ EachOnce set votes ∧ c = summed set votes := by
  constructor
  · intro h
    rcases ofVotes_cases set votes with ⟨-, hbuild⟩ | ⟨_, -, hbuild⟩ | ⟨hne, hfine, hbuild⟩
    · cases hbuild.symm.trans h
    · cases hbuild.symm.trans h
    · cases hbuild.symm.trans h
      exact ⟨hne, hfine, rfl⟩
  · rintro ⟨hne, hfine, rfl⟩
    exact hfine.ofVotes_eq hne

end Certificate

end Quorate
