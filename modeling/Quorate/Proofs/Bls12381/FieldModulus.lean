import Quorate.Bls12381.Field
import Quorate.Proofs.PrimeCertificate

/-!
# The modulus is a prime

A large prime factor of the predecessor shows it, whose predecessor again has a large prime factor, and so on for
four numbers down from the modulus. The last of them needs two factors.
-/

namespace Quorate.Bls12381

def fieldModulusSteps : List PrimeStep := [
  ⟨13090036741, [421987]⟩,
  ⟨3819663927398918131021, [113, 13090036741]⟩,
  ⟨1125266252156850182658904441386709967, [3819663927398918131021]⟩,
  ⟨15778400344354997994418419698270088123916926905054652752758194827714659,
    [1125266252156850182658904441386709967]⟩,
  ⟨fieldModulus, [15778400344354997994418419698270088123916926905054652752758194827714659]⟩]

theorem prime_fieldModulus : fieldModulus.Prime := by
  have hfound : ∀ q ∈ [113, 421987], q.Prime := by norm_num
  have hcertifies : certifies [113, 421987] fieldModulusSteps = true := by decide +kernel
  exact prime_of_certifies hfound hcertifies (by simp [fieldModulusSteps])

instance : Fact fieldModulus.Prime := ⟨prime_fieldModulus⟩

end Quorate.Bls12381
