import Quorate.Proofs.Key.BuiltKeys

/-!
# Checks against summed keys

A signature of many is checked against the sum of their keys, which is not validated. Nothing is lost by that: the sum
of keys that can be had lies in the group, so a check that validates the sum has the same answer. And the sum does not
depend on the order of the keys.
-/

namespace Quorate

open Bls12381 Weierstrass

namespace PublicKey

variable {keys others : List PublicKey} {k : PublicKey} {message tag : Bytes} {s : Signature}

theorem aggregate_eq_ok (hne : keys ≠ []) : aggregate keys = .ok ⟨Point.sum (keys.map point)⟩ := by
  cases keys with
  | nil => exact absurd rfl hne
  | cons first rest => rfl

theorem Built.summed (hkeys : ∀ key ∈ keys, key.Built) (hne : keys ≠ []) :
    (⟨Point.sum (keys.map point)⟩ : PublicKey).Built :=
  .sum hkeys (aggregate_eq_ok hne)

theorem sum_perm (hkeys : ∀ key ∈ keys, key.Built) (hperm : keys.Perm others) :
    Point.sum (keys.map point) = Point.sum (others.map point) := by
  refine Point.sum_perm G1.discriminant_ne_zero (hperm.map point) fun p hp => ?_
  obtain ⟨key, hkey, rfl⟩ := List.mem_map.1 hp
  exact (hkeys key hkey).onCurve

@[simp] theorem sum_singleton (k : PublicKey) : Point.sum ([k].map point) = k.point :=
  rfl

@[simp] theorem passes_identity (validate : Bool) : passes validate .identity message tag s = false :=
  rfl

/-- Validation changes nothing for a point of the group. -/
theorem passes_validate {p : G1} (hp : inSubgroup p = true) (validate : Bool) :
    passes validate p message tag s = passes false p message tag s := by
  unfold passes
  split
  · rfl
  · rfl
  · rw [hp, Bool.or_true, Bool.not_false, Bool.true_or]

theorem Built.passes_eq_verify (h : k.Built) :
    passes false k.point message tag s = k.verify message tag s :=
  (passes_validate h.inGroup.2 true).symm

end PublicKey

namespace Signature

variable {s : Signature} {keys others : List PublicKey} {message tag : Bytes}

theorem verifyAggregate_of_ne_nil (hne : keys ≠ []) : s.verifyAggregate keys message tag =
    PublicKey.passes false (Point.sum (keys.map PublicKey.point)) message tag s := by
  rw [verifyAggregate, List.isEmpty_eq_false_iff.2 hne, Bool.not_false, Bool.true_and]

theorem verifyAggregate_perm (hkeys : ∀ k ∈ keys, k.Built) (hperm : keys.Perm others) :
    s.verifyAggregate others message tag = s.verifyAggregate keys message tag := by
  by_cases hne : keys = []
  · subst hne
    rw [List.nil_perm.1 hperm]
  · have hne' : others ≠ [] := fun hnil => hne (List.perm_nil.1 (hnil ▸ hperm))
    rw [verifyAggregate_of_ne_nil hne, verifyAggregate_of_ne_nil hne', PublicKey.sum_perm hkeys hperm]

/-- For keys that can be had, with repeats and sums among them: no keys sign nothing and have no sum. Else they have a
sum, and the check of a signature against all of them is the check against their sum as a key of its own; it fails if
they sum to the identity, goes by the keys in any order, and for one key is the check against this key. -/
theorem verifyAggregate_agrees (s : Signature) (keys : List PublicKey) (message tag : Bytes)
    (hkeys : ∀ k ∈ keys, k.Built) :
    (keys = [] → s.verifyAggregate keys message tag = false ∧ PublicKey.aggregate keys = .error .emptyAggregate) ∧
    (keys ≠ [] → ∃ sum, PublicKey.aggregate keys = .ok sum ∧
      s.verifyAggregate keys message tag = sum.verify message tag s ∧
      (sum.point = .identity → s.verifyAggregate keys message tag = false)) ∧
    (∀ others, keys.Perm others → s.verifyAggregate others message tag = s.verifyAggregate keys message tag) ∧
    ∀ k, keys = [k] → s.verifyAggregate keys message tag = k.verify message tag s := by
  refine ⟨?_, ?_, fun others => verifyAggregate_perm hkeys, ?_⟩
  · rintro rfl
    exact ⟨rfl, rfl⟩
  · intro hne
    refine ⟨_, PublicKey.aggregate_eq_ok hne, ?_, ?_⟩
    · rw [verifyAggregate_of_ne_nil hne]
      exact (PublicKey.Built.summed hkeys hne).passes_eq_verify
    · intro hidentity
      have hpoint : Point.sum (keys.map PublicKey.point) = .identity := hidentity
      rw [verifyAggregate_of_ne_nil hne, hpoint, PublicKey.passes_identity]
  · rintro k rfl
    rw [verifyAggregate_of_ne_nil (List.cons_ne_nil _ _), PublicKey.sum_singleton]
    exact (hkeys k List.mem_cons_self).passes_eq_verify

/-- The key of a small secret. -/
def smallKey : PublicKey :=
  SecretKey.publicKey ⟨3, by decide, by decide⟩

/-- The key of the opposite secret. -/
def oppositeKey : PublicKey :=
  SecretKey.publicKey ⟨groupOrder - 3, by decide, by decide⟩

/-- The sum of the two. -/
def nobodysKey : PublicKey :=
  ⟨.identity⟩

theorem built_nobodysKey : nobodysKey.Built := by
  have hsum : PublicKey.aggregate [smallKey, oppositeKey] = .ok nobodysKey := by decide +kernel
  refine .sum (fun key hkey => ?_) hsum
  rcases List.mem_pair.1 hkey with rfl | rfl <;> exact .ofSecret _

/-- Among the keys may be repeats and a sum that is the identity, and all may sum to the identity. -/
theorem verifyAggregate_agrees_repeatedAndNobodys :
    let keys := [nobodysKey, smallKey, smallKey]
    let opposites := [smallKey, nobodysKey, oppositeKey]
    (∀ k ∈ keys, k.Built) ∧ (∀ k ∈ opposites, k.Built) ∧
    (∃ sum, PublicKey.aggregate keys = .ok sum ∧
      generator.verifyAggregate [smallKey, nobodysKey, smallKey] [1] [2] = sum.verify [1] [2] generator) ∧
    generator.verifyAggregate opposites [1] [2] = false := by
  intro keys opposites
  have hkeys : ∀ k ∈ keys, k.Built := by
    simp only [keys, List.forall_mem_cons]
    exact ⟨built_nobodysKey, .ofSecret _, .ofSecret _, nofun⟩
  have hopposites : ∀ k ∈ opposites, k.Built := by
    simp only [opposites, List.forall_mem_cons]
    exact ⟨.ofSecret _, built_nobodysKey, .ofSecret _, nofun⟩
  obtain ⟨-, hsummed, hperm, -⟩ := verifyAggregate_agrees generator keys [1] [2] hkeys
  obtain ⟨sum, hsum, hverify, -⟩ := hsummed nofun
  obtain ⟨-, hcancelled, -, -⟩ := verifyAggregate_agrees generator opposites [1] [2] hopposites
  obtain ⟨nobody, hnobody, -, hfails⟩ := hcancelled nofun
  have hidentity : PublicKey.aggregate opposites = .ok nobodysKey := by decide +kernel
  obtain rfl := Except.ok.inj (hnobody.symm.trans hidentity)
  refine ⟨hkeys, hopposites, ⟨sum, hsum, ?_⟩, hfails rfl⟩
  rw [hperm [smallKey, nobodysKey, smallKey] (.swap ..), hverify]

end Signature

end Quorate
