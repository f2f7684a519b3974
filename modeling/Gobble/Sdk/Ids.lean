import Mathlib.Tactic.Common

/-!
# Ids — keys with a meaning of their own

The well-known keys of `solana_sdk_ids` that the runtime compares accounts with.
-/

namespace Gobble
namespace Sdk

/-- A 32-byte key. -/
abbrev Pubkey := Vector UInt8 32

/-- The key with the given 32 bytes. -/
def pubkeyOfBytes (bytes : List UInt8) : Pubkey :=
  Vector.ofFn fun i => bytes.getD i 0

theorem pubkeyOfBytes_toList (key : Pubkey) : pubkeyOfBytes key.toList = key := by
  apply Vector.ext
  intro i hi
  simp [pubkeyOfBytes]

/-- The key `Sysvar1111111111111111111111111111111111111`. -/
def sysvarId : Pubkey :=
  #v[6, 167, 213, 23, 24, 117, 247, 41, 199, 61, 147, 64, 143, 33, 97, 32,
    6, 126, 216, 140, 118, 224, 140, 40, 127, 193, 148, 96, 0, 0, 0, 0]

/-- The key `Sysvar1nstructions1111111111111111111111111`. -/
def instructionsSysvarId : Pubkey :=
  #v[6, 167, 213, 23, 24, 123, 209, 102, 53, 218, 212, 4, 85, 253, 194, 192,
    193, 36, 198, 143, 33, 86, 117, 165, 219, 186, 203, 95, 8, 0, 0, 0]

/-- The key `NativeLoader1111111111111111111111111111111`. -/
def nativeLoaderId : Pubkey :=
  #v[5, 135, 132, 191, 20, 139, 164, 40, 47, 176, 18, 87, 72, 136, 169, 241,
    83, 160, 125, 173, 247, 101, 192, 69, 92, 154, 151, 3, 128, 0, 0, 0]

/-- The key `BPFLoader1111111111111111111111111111111111`. -/
def bpfLoaderDeprecatedId : Pubkey :=
  #v[2, 168, 246, 145, 78, 136, 161, 107, 189, 35, 149, 133, 95, 100, 4, 217,
    180, 244, 86, 183, 130, 27, 176, 20, 87, 73, 66, 140, 0, 0, 0, 0]

/-- The key `BPFLoader2111111111111111111111111111111111`. -/
def bpfLoaderId : Pubkey :=
  #v[2, 168, 246, 145, 78, 136, 161, 110, 57, 90, 225, 40, 148, 143, 250, 105,
    86, 147, 55, 104, 24, 221, 71, 67, 82, 33, 243, 198, 0, 0, 0, 0]

/-- The key `BPFLoaderUpgradeab1e11111111111111111111111`. -/
def bpfLoaderUpgradeableId : Pubkey :=
  #v[2, 168, 246, 145, 78, 136, 161, 176, 226, 16, 21, 62, 247, 99, 174, 43,
    0, 194, 185, 61, 22, 193, 36, 210, 192, 83, 122, 16, 4, 128, 0, 0]

/-- The key `11111111111111111111111111111111`. -/
def systemProgramId : Pubkey := Vector.replicate 32 0

/-- The key `Vote111111111111111111111111111111111111111`. -/
def voteProgramId : Pubkey :=
  #v[7, 97, 72, 29, 53, 116, 116, 187, 124, 77, 118, 36, 235, 211, 189, 179,
    216, 53, 94, 115, 209, 16, 67, 252, 13, 163, 83, 128, 0, 0, 0, 0]

/-- The key `ComputeBudget111111111111111111111111111111`. -/
def computeBudgetProgramId : Pubkey :=
  #v[3, 6, 70, 111, 229, 33, 23, 50, 255, 236, 173, 186, 114, 195, 155, 231,
    188, 140, 229, 187, 197, 247, 18, 107, 44, 67, 155, 58, 64, 0, 0, 0]

/-- The key `ZkTokenProof1111111111111111111111111111111`. -/
def zkTokenProofProgramId : Pubkey :=
  #v[8, 99, 186, 141, 217, 196, 194, 251, 23, 74, 5, 203, 162, 126, 42, 44,
    214, 35, 87, 61, 121, 233, 11, 53, 181, 121, 252, 13, 0, 0, 0, 0]

/-- The key `ZkE1Gama1Proof11111111111111111111111111111`. -/
def zkElgamalProofProgramId : Pubkey :=
  #v[8, 99, 117, 172, 226, 174, 234, 40, 26, 107, 55, 77, 104, 27, 167, 106,
    83, 204, 246, 56, 192, 116, 85, 147, 108, 5, 208, 101, 64, 0, 0, 0]

/-- The key `LoaderV411111111111111111111111111111111111`. -/
def loaderV4Id : Pubkey :=
  #v[5, 18, 180, 17, 81, 81, 227, 122, 173, 10, 139, 197, 211, 136, 46, 123,
    127, 218, 76, 243, 210, 192, 40, 200, 207, 131, 54, 24, 0, 0, 0, 0]

end Sdk
end Gobble
