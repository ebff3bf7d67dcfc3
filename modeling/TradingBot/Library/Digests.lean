import Mathlib.Logic.Equiv.List
import Mathlib.Data.Char

namespace TradingBot.Library.Digests

instance countableChar : Countable Char := by
  apply Function.Injective.countable (f := Char.toNat)
  intro c c' h
  rw [← Char.ofNat_toNat c, h, Char.ofNat_toNat]

instance countableString : Countable String := Function.Injective.countable fun _ _ => String.toList_inj.mp

theorem exists_injective_text (α : Type) [Countable α] : ∃ text : α → String, Function.Injective text := by
  obtain ⟨f, hf⟩ := exists_injective_nat α
  refine ⟨fun a => String.ofList (List.replicate (f a) 'a'), ?_⟩
  intro a b h
  have hlength := congrArg List.length (String.ofList_injective h)
  rw [List.length_replicate, List.length_replicate] at hlength
  exact hf hlength

end TradingBot.Library.Digests
