import WalletApi.Safety.Amounts
import WalletApi.Safety.Bank
import WalletApi.Safety.Checkouts
import WalletApi.Safety.Deadlock
import WalletApi.Safety.Debits
import WalletApi.Safety.Deliveries
import WalletApi.Safety.DoublePayout
import WalletApi.Safety.Earnings
import WalletApi.Safety.FinalStatus
import WalletApi.Safety.Fingerprint
import WalletApi.Safety.FollowUp
import WalletApi.Safety.Funding
import WalletApi.Safety.FundingReplay
import WalletApi.Safety.Idempotency
import WalletApi.Safety.Inserts
import WalletApi.Safety.Lockout
import WalletApi.Safety.Paging
import WalletApi.Safety.PayoutJobs
import WalletApi.Safety.PinCreation
import WalletApi.Safety.Progress
import WalletApi.Safety.Redelivery
import WalletApi.Safety.Refinement
import WalletApi.Safety.Reversals
import WalletApi.Safety.Spending
import WalletApi.Safety.Twins
import WalletApi.Safety.Verification
import WalletApi.Safety.Wallets
