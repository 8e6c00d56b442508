import LedgerOne.Lib.Region
import LedgerOne.Lib.Bytes
import LedgerOne.Lib.Loop
import LedgerOne.Lib.Ensures
import LedgerOne.Lib.Relates
import LedgerOne.Lib.Widens
import LedgerOne.Lib.Machine
import LedgerOne.Lib.Halves
import LedgerOne.Lib.Decimal
import LedgerOne.Lib.Polymod
import LedgerOne.Lib.Errors
import LedgerOne.Lib.Der
import LedgerOne.Lib.Rlp
import LedgerOne.Lib.Layout
import LedgerOne.Lib.Realization
import LedgerOne.Lib.Visits
import LedgerOne.Lib.Unfolding
import LedgerOne.Lib.Strings
import LedgerOne.Lib.Columns
import LedgerOne.Lib.Radix
import LedgerOne.Lib.Hex
import LedgerOne.Lib.Output
import LedgerOne.Lib.Specification
import LedgerOne.Lib.Chunks
import LedgerOne.Lib.Reading
import LedgerOne.Firmware.TxContext
import LedgerOne.Firmware.Memory
import LedgerOne.Firmware.Rlp
import LedgerOne.Firmware.Uint256
import LedgerOne.Firmware.Bech32
import LedgerOne.Firmware.Harmony
import LedgerOne.Firmware.Ui
import LedgerOne.Firmware.GetPublicKey
import LedgerOne.Firmware.GetTxnSig
import LedgerOne.Firmware.Staking
import LedgerOne.Firmware.Main
import LedgerOne.Firmware.Screens
import LedgerOne.Firmware.Room
import LedgerOne.Firmware.Approval
import LedgerOne.Firmware.Presses
import LedgerOne.Firmware.Requests
import LedgerOne.Firmware.Agreement
import LedgerOne.Firmware.Sessions
import LedgerOne.Firmware.Composing
import LedgerOne.Firmware.Writes
import LedgerOne.Firmware.TransferReview
import LedgerOne.Firmware.Parts
import LedgerOne.Firmware.Arrays
import LedgerOne.Firmware.StakingTexts
import LedgerOne.Firmware.StakingReview
import LedgerOne.Firmware.StakingScreens
import LedgerOne.Firmware.StakingFlows
import LedgerOne.Firmware.AddressReview
import LedgerOne.Decoder.Cursor
import LedgerOne.Decoder.Field
import LedgerOne.Decoder.Store
import LedgerOne.Decoder.Start
import LedgerOne.Decoder.Transfer
import LedgerOne.Decoder.Staking
import LedgerOne.Decoder.StakingReader
import LedgerOne.Decoder.Bounds
import LedgerOne.Decoder.Progress
import LedgerOne.Decoder.Inside
import LedgerOne.Decoder.Header
import LedgerOne.Decoder.Rounds
import LedgerOne.Decoder.Joined
import LedgerOne.Decoder.JoinedTransfer
import LedgerOne.Decoder.JoinedStaking
import LedgerOne.Decoder.JoinedReader
import LedgerOne.Decoder.JoinedEnds
import LedgerOne.Decoder.Visits
import LedgerOne.Decoder.Order
import LedgerOne.Decoder.Keys
import LedgerOne.Decoder.JoinedAgreement
import LedgerOne.Decoder.JoinedKeys
import LedgerOne.Decoder.Lengths
import LedgerOne.Firmware.Replies
import LedgerOne.Firmware.Onward
import LedgerOne.Messages.Transfer
import LedgerOne.Messages.Staking
import LedgerOne.Messages.Keys
import LedgerOne.Texts.Wide
import LedgerOne.Texts.Number
import LedgerOne.Texts.Amount
import LedgerOne.Texts.Rate
import LedgerOne.Texts.Address
import LedgerOne.Texts.Distance
import LedgerOne.Arithmetic.Product
import LedgerOne.Arithmetic.Division
import LedgerOne.Arithmetic.Digits
import LedgerOne.Security.FieldBounds
import LedgerOne.Security.Extension
import LedgerOne.Security.Formats
import LedgerOne.Security.CursorBounds
import LedgerOne.Security.Rejection
import LedgerOne.Security.Assembly
import LedgerOne.Security.Signature
import LedgerOne.Security.Packets
import LedgerOne.Security.Received
import LedgerOne.Security.TransferWrites
import LedgerOne.Security.Scrolling
import LedgerOne.Security.Arrows
import LedgerOne.Security.KeySummary
import LedgerOne.Security.KeyList
import LedgerOne.Security.Signer
import LedgerOne.Security.Consent
import LedgerOne.Security.Pages
import LedgerOne.Host.Framer
import LedgerOne.Host.Exchange
import LedgerOne.Host.NanoS
import LedgerOne.Host.Sdk
import LedgerOne.Security.Conversation
import LedgerOne.Security.Hosts
import LedgerOne.Security.Signings
import LedgerOne.Security.Drivers
import LedgerOne.Security.Walks
import LedgerOne.Security.StakingWalks
import LedgerOne.Security.StakingWalks
